import RedisGateway.Text.Point
import RedisGateway.Text.Printable

/-!
Texts and byte strings between quotes, on one line and with every unprintable character escaped.
-/

namespace RedisGateway.Text

def hexDigit (n : Nat) : Char :=
  if n < 10 then Char.ofNat (48 + n) else Char.ofNat (87 + n)

/-- The last `width` hexadecimal digits of a number. -/
def hexDigits : Nat → Nat → List Char
  | 0, _ => []
  | width + 1, n => hexDigits width (n / 16) ++ [hexDigit (n % 16)]

/-- The single quote, or the double quote for a text that holds single quotes only. -/
def chooseQuote (single double : Bool) : Char :=
  if single && !double then '"' else '\''

/-- How a character is written between the given quotes. -/
def quotedChar (quote c : Char) : List Char :=
  if c = quote || c = '\\' then ['\\', c]
  else if c = '\n' then ['\\', 'n']
  else if c = '\r' then ['\\', 'r']
  else if c = '\t' then ['\\', 't']
  else if isPrintable c then [c]
  else if c.toNat < 0x100 then '\\' :: 'x' :: hexDigits 2 c.toNat
  else if c.toNat < 0x10000 then '\\' :: 'u' :: hexDigits 4 c.toNat
  else '\\' :: 'U' :: hexDigits 8 c.toNat

/-- How a code point is written between the given quotes. -/
def quotedPoint (quote : Char) (n : Nat) : List Char :=
  if n.isValidChar then quotedChar quote (charAt n) else '\\' :: 'u' :: hexDigits 4 n

/-- Code points in quotes. -/
def quotedPoints (ns : List Nat) : String :=
  let quote := chooseQuote (ns.contains '\''.toNat) (ns.contains '"'.toNat)
  String.ofList (quote :: ns.flatMap (quotedPoint quote) ++ [quote])

/-- A text in quotes. -/
def quoted (s : String) : String := quotedPoints (points s)

/-- How a byte is written between the given quotes: bytes of printable ASCII characters stand for
themselves. -/
def quotedByte (quote : Char) (b : UInt8) : List Char :=
  let c := Char.ofNat b.toNat
  if c = quote || c = '\\' then ['\\', c]
  else if c = '\n' then ['\\', 'n']
  else if c = '\r' then ['\\', 'r']
  else if c = '\t' then ['\\', 't']
  else if 0x20 ≤ b && b < 0x7F then [c]
  else '\\' :: 'x' :: hexDigits 2 b.toNat

/-- A byte string in quotes, marked as one. -/
def quotedBytes (bs : List UInt8) : String :=
  let quote := chooseQuote (bs.contains 0x27) (bs.contains 0x22)
  String.ofList ('b' :: quote :: bs.flatMap (quotedByte quote) ++ [quote])

end RedisGateway.Text
