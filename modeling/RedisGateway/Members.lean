import RedisGateway.Fault

/-!
Sets and records of values: which values can be members or keys, and which of them are the same one.
-/

namespace RedisGateway.Value

mutual

/-- A value that never changes, so that it can be a member of a set. -/
def isFixed : Value → Bool
  | .list _ | .set _ | .record _ => false
  | .tuple vs => allFixed vs
  | _ => true

def allFixed : List Value → Bool
  | [] => true
  | v :: vs => isFixed v && allFixed vs

end

/-- The integer that a number is equal to. -/
def integer? : Value → Option Int
  | .flag b => some (if b then 1 else 0)
  | .whole n => some n
  | .real x => x.toInt?
  | _ => Option.none

/-- Whether two values without parts, of which neither is equal to an integer, are the same. -/
def sameAtom : Value → Value → Bool
  | .none, .none => true
  | .real x, .real y => x ≠ .nan && x = y
  | .text s, .text t => s = t
  | .brokenText ns, .brokenText ms => ns = ms
  | .bytes bs, .bytes cs => bs = cs
  | .duration d, .duration e => d = e
  | .options o, .options p => o = p
  | .moment s, .moment t => s = t
  | _, _ => false

mutual

/-- Whether two values are one member of a set or one key: numbers are compared by what they are
equal to. -/
def same : Value → Value → Bool
  | .tuple vs, .tuple ws => allSame vs ws
  | v, w => match v.integer?, w.integer? with
    | some m, some n => m = n
    | Option.none, Option.none => sameAtom v w
    | _, _ => false

def allSame : List Value → List Value → Bool
  | [], [] => true
  | v :: vs, w :: ws => same v w && allSame vs ws
  | _, _ => false

end

/-- The set of values: of those that are the same the first one stays. -/
def setOf (vs : List Value) : Except Fault Value :=
  if allFixed vs then
    .ok (.set (vs.foldl (fun ms v => if ms.any (same · v) then ms else ms ++ [v]) []))
  else .error .changeableMember

/-- An entry of a record goes where its key stands already, or to the end. -/
def putEntry (es : List (Value × Value)) (k v : Value) : List (Value × Value) :=
  if es.any (same ·.1 k) then es.map fun e => if same e.1 k then (e.1, v) else e
  else es ++ [(k, v)]

/-- The record of entries, of which a later one replaces an earlier one with the same key. -/
def recordOf (es : List (Value × Value)) : Value :=
  .record (es.foldl (fun out e => putEntry out e.1 e.2) [])

end RedisGateway.Value
