import RedisGateway.Fault
import RedisGateway.Number.Reading
import RedisGateway.Text.Blank

/-!
Numerals as texts in full: with blanks around them, a sign, and digits of some base.
-/

namespace RedisGateway.Text

/-! ## Characters -/

/-- The zeros of the decimal digits of Unicode; each is followed by the other nine. -/
def decimalZeros : List Nat :=
  [0x30, 0x660, 0x6F0, 0x7C0, 0x966, 0x9E6, 0xA66, 0xAE6, 0xB66, 0xBE6, 0xC66, 0xCE6, 0xD66,
   0xDE6, 0xE50, 0xED0, 0xF20, 0x1040, 0x1090, 0x17E0, 0x1810, 0x1946, 0x19D0, 0x1A80, 0x1A90,
   0x1B50, 0x1BB0, 0x1C40, 0x1C50, 0xA620, 0xA8D0, 0xA900, 0xA9D0, 0xA9F0, 0xAA50, 0xABF0,
   0xFF10, 0x104A0, 0x10D30, 0x11066, 0x110F0, 0x11136, 0x111D0, 0x112F0, 0x11450, 0x114D0,
   0x11650, 0x116C0, 0x11730, 0x118E0, 0x11950, 0x11C50, 0x11D50, 0x11DA0, 0x16A60, 0x16AC0,
   0x16B50, 0x1D7CE, 0x1D7D8, 0x1D7E2, 0x1D7EC, 0x1D7F6, 0x1E140, 0x1E2F0, 0x1E950, 0x1FBF0]

/-- A character of a numeral in ASCII: a decimal digit of any script is the digit, and white space
beyond ASCII is a space. Other characters stay. -/
def toAscii (c : Char) : Char :=
  if c.toNat < 128 then c
  else if isSpace c then ' '
  else match decimalZeros.find? fun z => z ≤ c.toNat && c.toNat < z + 10 with
    | some z => Char.ofNat (0x30 + (c.toNat - z))
    | none => c

/-- An ASCII blank. -/
def isAsciiBlank (c : Char) : Bool := c = ' ' || (9 ≤ c.toNat && c.toNat ≤ 13)

/-- What stands between the blanks around a numeral, in ASCII. -/
def numeralIn (cs : List Char) : List Char := trimBy isAsciiBlank (cs.map toAscii)

/-- Underscores stand one at a time and between digits: `digit` says that one stands in front. -/
def underscoresFit (digit : Bool) : List Char → Bool
  | [] => digit
  | '_' :: cs => digit && underscoresFit false cs
  | _ :: cs => underscoresFit true cs

/-- The value of a digit in bases up to sixteen. -/
def digitIn? (base : Nat) (c : Char) : Option Nat :=
  let v := if isDigit c then some (digitValue c)
    else if 'a' ≤ c && c ≤ 'f' then some (c.toNat - 87)
    else if 'A' ≤ c && c ≤ 'F' then some (c.toNat - 55)
    else none
  v.filter (· < base)

/-! ## Numbers -/

/-- The number that digits of a base denote, of which there is at least one. -/
def natIn? (base : Nat) (cs : List Char) : Option Nat :=
  match cs with
  | [] => none
  | _ => cs.foldlM (fun n c => (digitIn? base c).map (n * base + ·)) 0

/-- The sign in front of a numeral, and the rest of it. -/
def splitSign : List Char → Bool × List Char
  | '-' :: cs => (true, cs)
  | '+' :: cs => (false, cs)
  | cs => (false, cs)

/-- The letters that may mark the base of a numeral. -/
def baseLetters : Nat → List Char
  | 2 => ['b', 'B']
  | 8 => ['o', 'O']
  | 16 => ['x', 'X']
  | _ => []

/-- A numeral without the mark of its base. -/
def dropBaseMark (base : Nat) : List Char → List Char
  | '0' :: c :: cs => if (baseLetters base).contains c then cs else '0' :: c :: cs
  | cs => cs

/-- The integer that a numeral of a base denotes. Decimal numerals are limited in length, which is
noticed before anything behind the digits. `given` is what a fault names. -/
def integerOf (base : Nat) (given : Value) (cs : List Char) : Except Fault Int :=
  let (negative, ds) := splitSign (numeralIn cs)
  let ds := dropBaseMark base ds
  let run := ds.takeWhile fun c => c = '_' || (digitIn? base c).isSome
  let digits := run.filter (· ≠ '_')
  if !underscoresFit false run then .error (.numeralMalformed given base)
  else if base = 10 && Fault.maxDigits < digits.length then .error (.numeralTooLong digits.length)
  else if run.length < ds.length then .error (.numeralMalformed given base)
  else match natIn? base digits with
    | none => .error (.numeralMalformed given base)
    | some n => .ok (if negative then -(n : Int) else n)

/-- The integer that code points denote in a base. -/
def integerIn (base : Nat) (ns : List Nat) : Except Fault Int :=
  integerOf base (.ofPoints ns) (ns.map charAt)

/-- The binary64 value that code points denote in decimal. -/
def realIn (ns : List Nat) : Except Fault Binary64 :=
  match Binary64.read? (String.ofList (numeralIn (ns.map charAt))) with
  | some x => .ok x
  | none => .error (.decimalMalformed (.ofPoints ns))

end RedisGateway.Text
