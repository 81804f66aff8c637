import RedisGateway.Number.Binary64
import RedisGateway.Text.Case
import RedisGateway.Text.Split

/-!
Reading decimal texts as binary64 values.
-/

namespace RedisGateway.Binary64

/-- The exponent after its mark: an optional sign and digits up to the end. -/
def exponentOf? (cs : List Char) : Option Int :=
  let (negative, ds) := match cs with
    | '-' :: ds => (true, ds)
    | '+' :: ds => (false, ds)
    | ds => (false, ds)
  if Text.isNumeral ds then
    let n : Int := Text.natOfDigits ds
    some (if negative then -n else n)
  else none

/-- The value of a decimal numeral without its sign: digits, of which some may follow a point, and
an optional exponent. -/
def magnitudeOf? (negative : Bool) (cs : List Char) : Option Binary64 :=
  let (mantissa, power) := cs.span fun c => c ≠ 'e' && c ≠ 'E'
  let (whole, places) := mantissa.span (· ≠ '.')
  let ds := whole ++ places.drop 1
  let power? := match power with
    | [] => some 0
    | _ :: p => exponentOf? p
  if Text.isNumeral ds then
    power?.map fun p => .ofScientific negative (Text.natOfDigits ds) (p - (places.length - 1 : Nat))
  else none

/-- The value that a decimal text denotes: a numeral with an optional sign, or a word for an
infinite value or for no number. -/
def read? (s : String) : Option Binary64 :=
  let (negative, cs) := match (Text.lowerAsciiText s).toList with
    | '-' :: cs => (true, cs)
    | '+' :: cs => (false, cs)
    | cs => (false, cs)
  if cs = "inf".toList || cs = "infinity".toList then some (.infinite negative)
  else if cs = "nan".toList then some .nan
  else magnitudeOf? negative cs

end RedisGateway.Binary64
