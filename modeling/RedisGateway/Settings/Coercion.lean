import RedisGateway.Codec
import RedisGateway.Fault
import RedisGateway.Text.Blank
import RedisGateway.Text.Case
import RedisGateway.Text.Split

/-!
Reading a setting from a value of another type: integers and flags from numbers and texts, texts
from bytes. What cannot be read is a problem of a definite kind.
-/

namespace RedisGateway.Settings

/-- Bounds of the 64-bit integers. -/
def int64Bound : Int := Nat.pow 2 63

/-- The text that bytes encode in UTF-8. -/
def decodeUtf8? (bs : List UInt8) : Option String := String.fromUTF8? ⟨bs.toArray⟩

/-- What follows a zero and further zeros, among which underscores may stand: a digit or a minus
sign begins it. One zero remains of a text of zeros, and one before a point. -/
def dropZeros (last : Char) : List Char → Option (List Char)
  | [] => some [last]
  | c :: cs =>
    if c = '0' || c = '_' then dropZeros c cs
    else if Text.isDigit c || c = '-' then some (c :: cs)
    else if c = '.' then some (last :: c :: cs)
    else none

/-- A text that begins with a digit or a minus sign, without its leading zeros. -/
def fromDigit? : List Char → Option (List Char)
  | '0' :: cs => dropZeros '0' cs
  | c :: cs => if Text.isDigit c || c = '-' then some (c :: cs) else none
  | [] => none

/-- A text without leading zeros behind its sign, and without a plus sign. -/
def dropLeading? : List Char → Option (List Char)
  | '+' :: '-' :: _ => none
  | '+' :: cs => fromDigit? cs
  | '-' :: cs => (fromDigit? cs).map ('-' :: ·)
  | cs => fromDigit? cs

/-- A text without a fraction of zeros only. -/
def dropFraction (cs : List Char) : List Char :=
  match cs.span (· ≠ '.') with
  | (whole, '.' :: c :: places) => if (c :: places).all (· = '0') then whole else cs
  | _ => cs

/-- Underscores stand one at a time and inside the text. -/
def groupsWell : List Char → Bool
  | [] => true
  | ['_'] => false
  | '_' :: '_' :: _ => false
  | _ :: cs => groupsWell cs

/-- A text without its underscores, if they are where they may be. -/
def dropBars (cs : List Char) : List Char :=
  if groupsWell cs && cs.head? ≠ some '_' then cs.filter (· ≠ '_') else cs

/-- What is left of a text without blanks around it, plus sign, leading zeros, fraction of zeros and
underscores. -/
def cleanNumeral? (cs : List Char) : Option (List Char) :=
  (dropLeading? (Text.trimBy Text.isSpace cs)).map fun cs => dropBars (dropFraction cs)

/-- The integer of a numeral in its usual form: an optional minus sign and digits, without leading
zeros. Too many characters are noticed before anything behind the digits. -/
def canonicalInteger (cs : List Char) : Except Problem Int :=
  let (negative, ds) := match cs with
    | '-' :: ds => (true, ds)
    | ds => (false, ds)
  let (run, rest) := ds.span Text.isDigit
  let sign := if negative then 1 else 0
  if run.isEmpty || (run.head? = some '0' && run ≠ ['0']) then .error .integerText
  else if Fault.maxDigits < sign + run.length then .error .integerSize
  else if !rest.isEmpty then .error .integerText
  else
    let n : Int := Text.natOfDigits run
    .ok (if negative then -n else n)

/-- An integer from a text. -/
def integerOfText (s : String) : Except Problem Int :=
  match cleanNumeral? s.toList with
  | some cs => canonicalInteger cs
  | none => .error .integerText

/-- An integer from a binary64 value without a fraction. -/
def integerOfReal (x : Binary64) : Except Problem Int :=
  if !x.isFinite then .error .notFinite
  else match x.toInt? with
    | some n => if -int64Bound < n ∧ n < int64Bound then .ok n else .error .integerSize
    | none => .error .fractional

/-- An integer. -/
def toInteger : Value → Except Problem Int
  | .whole n => .ok n
  | .flag b => .ok (if b then 1 else 0)
  | .real x => integerOfReal x
  | .text s => integerOfText s
  | .bytes bs => match decodeUtf8? bs with
    | some s => integerOfText s
    | none => .error .integerText
  | .brokenText _ => .error .notUnicode
  | _ => .error .notInteger

/-- An integer that is not negative. -/
def toCount (v : Value) : Except Problem Int := do
  let n ← toInteger v
  if n < 0 then .error .belowZero else .ok n

/-- The words for true, and those for false. -/
def flagWords : List (String × Bool) :=
  [("1", true), ("t", true), ("true", true), ("on", true), ("y", true), ("yes", true),
   ("0", false), ("f", false), ("false", false), ("off", false), ("n", false), ("no", false)]

/-- A flag from one of its words, in any case. -/
def flagOfText (s : String) : Except Problem Bool :=
  match flagWords.lookup (Text.lowerAsciiText s) with
  | some b => .ok b
  | none => .error .flagText

/-- A flag from an integer. -/
def flagOfInteger (n : Int) : Except Problem Bool :=
  if n = 0 then .ok false
  else if n = 1 then .ok true
  else if -int64Bound ≤ n ∧ n < int64Bound then .error .flagText
  else .error .notFlag

/-- A flag. -/
def toFlag : Value → Except Problem Bool
  | .flag b => .ok b
  | .whole n => flagOfInteger n
  | .real x => match integerOfReal x with
    | .ok n => flagOfInteger n
    | .error _ => .error .notFlag
  | .text s => flagOfText s
  | .bytes bs => match decodeUtf8? bs with
    | some s => flagOfText s
    | none => .error .flagText
  | .brokenText _ => .error .notUnicode
  | _ => .error .notFlag

/-- A text. Code points that are no characters are replaced. -/
def toText : Value → Except Problem String
  | .text s => .ok s
  | .bytes bs => match decodeUtf8? bs with
    | some s => .ok s
    | none => .error .notUnicode
  | .brokenText ns => .ok (Text.ofPoints ns)
  | _ => .error .notText

/-- The codec that a text, or its bytes, names. -/
def toCodec (v : Value) : Except Problem CodecType :=
  let named := match v with
    | .bytes bs => ((decodeUtf8? bs).map Value.text).getD v
    | v => v
  match CodecType.ofValue? named, v with
  | some t, _ => .ok t
  | none, .brokenText _ => .error .notUnicode
  | none, _ => .error .notCodec

end RedisGateway.Settings
