import RedisGateway.Yaml.Moment
import RedisGateway.Yaml.Scalar
import RedisGateway.Yaml.Tag

/-!
The values of scalars by their tags.
-/

namespace RedisGateway.Yaml

/-- A fault of nodes that make no value. -/
def constructionFault : Fault := .malformedDocument .construction

/-- The truth values by their words. -/
def boolWords : List (String × Bool) :=
  [("yes", true), ("no", false), ("true", true), ("false", false), ("on", true), ("off", false)]

def boolValue (ns : List Nat) : Except Fault Value :=
  let word := Value.ofPoints (Text.lowerPoints ns)
  match word.text?.bind (fun w => boolWords.lookup w) with
  | some b => .ok (.flag b)
  | none => .error (.unknownKey word)

/-! ## Numbers -/

/-- A numeral without its bars, taken apart into its sign and the rest. There has to be
something. -/
def signed (ns : List Nat) : Except Fault (Bool × List Nat) :=
  match ns.filter (· ≠ '_'.toNat) with
  | [] => .error .emptyNumeral
  | n :: rest =>
    if n = '-'.toNat then .ok (true, rest)
    else if n = '+'.toNat then .ok (false, rest)
    else .ok (false, n :: rest)

/-- The parts of a number in sixtieths, the last of which stands alone in any other number. -/
def sixtiethsOf (ns : List Nat) : List (List Nat) := Text.split ':'.toNat ns

/-- The integer of a numeral: binary, hexadecimal, octal with a leading zero, in sixtieths, or
decimal. -/
def integerOf (ns : List Nat) : Except Fault Int := do
  let (negative, ds) ← signed ns
  let begins (s : String) : Bool := (Text.points s).isPrefixOf ds
  let n : Int ←
    if ds.isEmpty then throw .emptyNumeral
    else if ds = Text.points "0" then pure 0
    else if begins "0b" then Text.integerIn 2 (ds.drop 2)
    else if begins "0x" then Text.integerIn 16 (ds.drop 2)
    else if begins "0" then Text.integerIn 8 ds
    else do
      let parts ← (sixtiethsOf ds).mapM (Text.integerIn 10)
      pure (parts.foldl (fun n p => n * 60 + p) 0)
  return if negative then -n else n

/-- The sum of numbers with weights that grow sixtyfold, from the last one on. A weight has to be
in the range of binary64 values. -/
def sumOfSixtieths (weight : Int) (sum : Binary64) : List Binary64 → Except Fault Binary64
  | [] => .ok sum
  | x :: xs =>
    if Binary64.exceedsRange weight then .error .numberOutOfRange
    else sumOfSixtieths (weight * 60) (sum.add (x.mul (.ofInt weight))) xs

/-- The floating point number of a numeral. -/
def realOf (ns : List Nat) : Except Fault Binary64 := do
  let (negative, ds) ← signed (Text.lowerPoints ns)
  let x ←
    if ds = Text.points ".inf" then pure (.infinite false)
    else if ds = Text.points ".nan" then pure .nan
    else if ds.contains ':'.toNat then do
      let parts ← (sixtiethsOf ds).mapM Text.realIn
      sumOfSixtieths 1 (.ofInt 0) parts.reverse
    else Text.realIn ds
  return if negative then x.neg else x

/-! ## Bytes -/

/-- The value of a character of base 64. -/
def sextet? (c : Char) : Option Nat :=
  if 'A' ≤ c && c ≤ 'Z' then some (c.toNat - 65)
  else if 'a' ≤ c && c ≤ 'z' then some (c.toNat - 71)
  else if '0' ≤ c && c ≤ '9' then some (c.toNat + 4)
  else if c = '+' then some 62
  else if c = '/' then some 63
  else none

/-- The bytes of characters of base 64: `held` counts the characters of the group that were read,
`left` holds the bits of the last one that belong to the next byte, and `pads` counts the padding
that follows. Other characters are passed over. -/
def base64 (held left pads : Nat) : List Char → Option (List UInt8)
  | [] => if held = 0 then some [] else none
  | c :: cs =>
    if c = '=' then
      if 2 ≤ held then
        if 4 ≤ held + pads + 1 then some [] else base64 held left (pads + 1) cs
      else base64 held left pads cs
    else match sextet? c with
      | none => base64 held left pads cs
      | some v =>
        let byte (n : Nat) (rest : Option (List UInt8)) := rest.map (n.toUInt8 :: ·)
        match held with
        | 0 => base64 1 v 0 cs
        | 1 => byte (left * 4 + v / 16) (base64 2 (v % 16) 0 cs)
        | 2 => byte (left * 16 + v / 4) (base64 3 (v % 4) 0 cs)
        | _ => byte (left * 64 + v) (base64 0 0 0 cs)

def binaryValue (ns : List Nat) : Except Fault Value :=
  if ns.any (127 < ·) then .error constructionFault
  else match base64 0 0 0 (ns.map Text.charAt) with
    | some bs => .ok (.bytes bs)
    | none => .error constructionFault

/-! ## Tags -/

/-- How the content of a node with a tag of scalars is read. -/
def Tag.atom? : Tag → Option (Content → Except Fault Value)
  | .null => some fun _ => .ok .none
  | .bool => some fun c => boolValue c.points
  | .int => some fun c => (integerOf c.points).map .whole
  | .float => some fun c => (realOf c.points).map .real
  | .binary => some fun c => binaryValue c.points
  | .timestamp => some fun c => Moment.value c.text
  | .str => some fun c => .ok (.ofPoints c.points)
  | _ => none

/-- What the value of a node with a tag of collections is before it is filled. -/
def Tag.hollow? : Tag → Option Value
  | .seq | .orderedMap | .pairs => some (.list [])
  | .map => some (.record [])
  | .set => some (.set [])
  | _ => none

end RedisGateway.Yaml
