import RedisGateway.Settings.Json
import RedisGateway.Settings.Model

/-!
Resolution of all settings. A group's values come from what is given, then from the variables with
the group's name and a double underscore, then from the JSON in the variable of the group, then from
the group's own variables; what none of them gives has its default.
-/

namespace RedisGateway.Settings

/-- The entries of a record. -/
abbrev Entries := List (Value × Value)

/-- The value of a record under a name. -/
def Entries.get? (es : Entries) (name : String) : Option Value :=
  (es.find? fun e => e.1.isText name).map (·.2)

/-- An entry replaces the value of its name or is added at the end. -/
def Entries.put (es : Entries) (name : String) (v : Value) : Entries :=
  Value.putEntry es (.text name) v

mutual

/-- A stronger value over a weaker one: of two records each entry by itself, else the stronger. -/
def overlay (weak : Value) : Value → Value
  | .record es => match weak with
    | .record ws => .record (overlayEntries ws es)
    | _ => .record es
  | v => v

/-- The entries of a stronger record over those of a weaker one. -/
def overlayEntries (ws : Entries) : Entries → Entries
  | [] => ws
  | (.text k, v) :: es =>
    overlayEntries (Entries.put ws k (match Entries.get? ws k with
      | some w => overlay w v
      | none => v)) es
  | (k, v) :: es => overlayEntries (ws ++ [(k, v)]) es

end

/-- The characters behind a separator at the front of a text. -/
def behind? : List Char → List Char → Option (List Char)
  | [], cs => some cs
  | s :: ss, c :: cs => if s = c then behind? ss cs else none
  | _ :: _, [] => none

/-- The names between separators, of which the last one holds what is left after so many names. -/
def namesBetween (separator : List Char) : Nat → Nat → List Char → List (List Char)
  | 0, _, cs | _, 0, cs => [cs]
  | _, _ + 1, [] => [[]]
  | most + 1, fuel + 1, c :: cs =>
    match behind? separator (c :: cs) with
    | some rest => if most = 0 then [c :: cs] else [] :: namesBetween separator most fuel rest
    | none => match namesBetween separator (most + 1) fuel cs with
      | [] => [[c]]
      | p :: ps => (c :: p) :: ps

/-- A value put into nested records along a path. A value that stands where a record is needed is
kept, and nothing takes the place of no value but an empty record. -/
def plant (es : Entries) (v : Value) : List String → Entries
  | [] => es
  | [k] => match v, Entries.get? es k with
    | .none, some (.record []) => Entries.put es k v
    | .none, some _ => es
    | v, _ => Entries.put es k v
  | k :: ks => match Entries.get? es k with
    | some (.record inner) => Entries.put es k (.record (plant inner v ks))
    | some _ => es
    | none => Entries.put es k (.record (plant [] v ks))

/-- The variables whose names begin with the group's name and a separator, as a record. -/
def nestedVariables (s : Sources) (group : String) : Entries :=
  let separator := s.lookup.separator.toList
  if separator.isEmpty then []
  else s.seen.foldl (fun es p =>
    match behind? ((s.lookup.variableName group).toList ++ separator) p.1.toList with
    | none => es
    | some rest =>
      let most := s.lookup.mostNames.getD (rest.length + 1)
      let path := namesBetween separator most (rest.length + 1) rest
      plant es p.2 (path.map String.ofList)) []

/-- The entries with the names of fields where only their case differs. -/
def foldNames (names : List String) (es : Entries) : Entries :=
  es.foldl (fun out e => match e.1 with
    | .text k =>
      let folded := Text.lower k
      Entries.put out (if names.contains folded then folded else k) e.2
    | _ => out ++ [e]) []

/-- The value of a group among the variables. -/
def groupVariable (s : Sources) (group : String) (names : List String) :
    Except Fault (Option Value) :=
  let fold (es : Entries) : Entries := if s.lookup.caseMatters then es else foldNames names es
  let nested := nestedVariables s group
  match s.seen.get? (s.lookup.variableName group) with
  | some (.text json) => match Json.read? json with
    | none => .error (.unreadableVariable group)
    | some .none => .ok none
    | some v@(.record _) => match overlay v (.record nested) with
      | .record es => .ok (some (.record (fold es)))
      | v => .ok (some v)
    | some v => .ok (some v)
  | some v => .ok (some v)
  | none => .ok (if nested.isEmpty then none else some (.record (fold nested)))

/-- The entries of a record whose names are texts, and whether some of these are broken; nothing if
there are other names. -/
def givenIn? (es : Entries) : Option (Fields × Bool) :=
  let named (e : Value × Value) : Bool := match e.1 with
    | .text _ | .brokenText _ => true
    | _ => false
  if es.all named then
    let fields := es.filterMap fun e => e.1.text?.map fun k => (k, e.2)
    some (fields, fields.length < es.length)
  else none

/-- What is found in a record of named values: a broken name is an issue that hides all others. -/
def checkRecord {α : Type} (check : Fields → Except Fault (Checked α)) (es : Entries) :
    Except Fault (Checked α) :=
  match givenIn? es with
  | none => .error .notFields
  | some (given, broken) => (check given).map fun found =>
    if broken then .error [⟨[], .notUnicode⟩] else found

/-- A group read from a value, which must be a record of named values. -/
def checkGroup {α : Type} (field kind : String) (check : Fields → Except Fault (Checked α)) :
    Value → Except Fault (Checked α)
  | .record es => (checkRecord check es).map (·.under field)
  | _ => .ok (.error [⟨[field], .notGroup kind⟩])

/-- A group from its value, or from its own variables alone; the issues of the latter are reported
at once. -/
def groupOf {α : Type} (field kind : String) (check : Fields → Except Fault (Checked α)) :
    Option Value → Except Fault (Checked α)
  | some v => checkGroup field kind check v
  | none => do return .ok (← (← check []).toFault)

/-- What is given over what the environment has. -/
def given? (given : Fields) (field : String) (fromEnvironment : Option Value) : Option Value :=
  match given.get? field, fromEnvironment with
  | some v, some w => some (overlay w v)
  | some v, none => some v
  | none, w => w

/-- The names of the fields, in order. -/
def names : List String := ["connection", "pool", "codec"]

def codecField : FieldRule CodecType := ⟨"codec", .string, toCodec⟩

/-- The codec's raw value. A variable may name it in capitals. -/
def codecValue? (s : Sources) : Option Value :=
  match s.given.get? codecField.name, s.value? codecField.name with
  | none, some (.text t) =>
    let known := CodecType.all.find? fun c => s.lookup.capitalCodecs && c.name.toUpper = t
    some (.text ((known.map CodecType.name).getD t))
  | _, v => v

/-- What the names of the variables begin with. -/
def variableStart : String := "REDIS_"

/-- All settings from what is given and from the environment, with their issues. -/
def check (given : Fields) (env : Environment) : Except Fault (Checked Settings) := do
  let s ← sourcesOf variableStart names given env
  let connection ← groupVariable s "connection" ConnectionSettings.names
  let pool ← groupVariable s "pool" Pool.Limits.names
  let connection ← groupOf "connection" "ConnectionSettings"
    (fun fs => ConnectionSettings.check fs env) (given? s.given "connection" connection)
  let pool ← groupOf "pool" "PoolSettings"
    (fun fs => Pool.Limits.check fs env) (given? s.given "pool" pool)
  let codec := codecField.readAs codecField.name (codecValue? s)
  let read : Checked Settings := ((connection.map Settings.mk).app pool).app codec
  return read.andIssues (unknownNames names s)

/-- All settings from what is given and from the environment, unless there are issues. -/
def resolve (given : Fields) (env : Environment) : Except Fault Settings :=
  (check given env).bind (·.toFault)

/-- The settings by field name, the groups as records. -/
def toFields (s : Settings) : Fields :=
  [("connection", .ofFields s.connection.toFields), ("pool", .ofFields s.pool.toFields),
   ("codec", .text s.codec.name)]

end RedisGateway.Settings
