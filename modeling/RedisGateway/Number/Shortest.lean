import RedisGateway.Number.Binary64

/-!
The fewest decimal digits that read back as a binary64 value, and the decimal text made of them.
-/

namespace RedisGateway

/-- A positive decimal `digits · 10 ^ exponent`. -/
structure Decimal where
  digits : Nat
  exponent : Int
  deriving DecidableEq, Repr

namespace Decimal

/-- The same number without trailing zeros among the digits. -/
def trim (fuel : Nat) (d : Decimal) : Decimal :=
  match fuel with
  | 0 => d
  | n + 1 => if d.digits % 10 = 0 then trim n ⟨d.digits / 10, d.exponent + 1⟩ else d

end Decimal

namespace Binary64

/-- A positive rational, as numerator and denominator. -/
structure Ratio where
  num : Nat
  den : Nat

namespace Ratio

def le (a b : Ratio) : Bool := a.num * b.den ≤ b.num * a.den

def lt (a b : Ratio) : Bool := a.num * b.den < b.num * a.den

/-- `n · 10 ^ e`. -/
def ofDecimal (n : Nat) (e : Int) : Ratio := ⟨n * Nat.pow 10 e.toNat, Nat.pow 10 (-e).toNat⟩

/-- `n · 2 ^ e`. -/
def ofDyadic (n : Nat) (e : Int) : Ratio := ⟨scaleUp n e, scaleUp 1 (-e)⟩

end Ratio

/-- The number of digits before the decimal point of `m · 2 ^ e`, counted down to negative numbers
for values below a tenth. -/
def magnitude (m : Nat) (e : Int) : Int :=
  let v := Ratio.ofDyadic m e
  let guess : Int := ((m.log2 : Int) + e) * 30103 / 100000
  if Ratio.lt v (.ofDecimal 1 guess) then guess
  else if Ratio.lt v (.ofDecimal 1 (guess + 1)) then guess + 1
  else guess + 2

/-- The decimals that read back as `m · 2 ^ e` lie between these bounds, which themselves read back
when `m` is even. -/
def bounds (m : Nat) (e : Int) : Ratio × Ratio :=
  let below := if m = Nat.pow 2 52 ∧ -1074 < e then 1 else 2
  (.ofDyadic (4 * m - below) (e - 2), .ofDyadic (4 * m + 2) (e - 2))

/-- The point nearest to `m · 2 ^ e` among its two neighbours on the grid of multiples of `10 ^ g`,
if one of them reads back. -/
def gridPoint? (m : Nat) (e g : Int) : Option Decimal :=
  let v := Ratio.ofDyadic m e
  let (lo, hi) := bounds m e
  let unit := Ratio.ofDecimal 1 g
  let readsBack (n : Nat) : Bool :=
    let x : Ratio := ⟨n * unit.num, unit.den⟩
    if m % 2 = 0 then lo.le x && x.le hi else lo.lt x && x.lt hi
  let n := (v.num * unit.den) / (v.den * unit.num)
  match 0 < n && readsBack n, readsBack (n + 1) with
  | false, false => none
  | true, false => some ⟨n, g⟩
  | false, true => some ⟨n + 1, g⟩
  | true, true =>
    let middle : Ratio := ⟨(2 * n + 1) * unit.num, 2 * unit.den⟩
    if v.lt middle || !middle.lt v && n % 2 = 0 then some ⟨n, g⟩ else some ⟨n + 1, g⟩

/-- The first grid of `digits`, `digits + 1`, … significant digits that holds a decimal reading back
as `m · 2 ^ e`. -/
def shortestFrom (m : Nat) (e top : Int) : Nat → Nat → Option Decimal
  | 0, _ => none
  | fuel + 1, digits =>
    match gridPoint? m e (top - digits) with
    | some d => some d
    | none => shortestFrom m e top fuel (digits + 1)

/-- The shortest decimal that reads back as `m · 2 ^ e`; seventeen digits always suffice. -/
def shortest (m : Nat) (e : Int) : Decimal :=
  match shortestFrom m e (magnitude m e) 17 1 with
  | some d => d.trim 20
  | none => ⟨m, 0⟩

/-- How a binary64 value is written: from which decimal exponents on it is written with an exponent,
and what follows a whole number. -/
structure Layout where
  /-- Exponents below this one are written out. -/
  leastPositional : Int
  /-- Exponents from this one on are written out. -/
  firstScientific : Int
  wholeSuffix : String
  exponentDigits : Nat

/-- Numbers from `10 ^ -4` up to `10 ^ 16` are positional, a whole one ends in `.0`, and an exponent
has a sign and at least two digits. -/
def plain : Layout := ⟨-4, 16, ".0", 2⟩

def padLeft (n : Nat) (s : String) : String :=
  "".pushn '0' (n - s.length) ++ s

/-- The text of a positive decimal. -/
def Layout.write (f : Layout) (d : Decimal) : String :=
  let ds := toString d.digits
  let point : Int := d.exponent + ds.length
  if f.leastPositional ≤ point - 1 ∧ point - 1 < f.firstScientific then
    if point ≤ 0 then "0." ++ "".pushn '0' (-point).toNat ++ ds
    else if (ds.length : Int) ≤ point then
      ds ++ "".pushn '0' (point - ds.length).toNat ++ f.wholeSuffix
    else
      let cs := ds.toList
      String.ofList (cs.take point.toNat) ++ "." ++ String.ofList (cs.drop point.toNat)
  else
    let e := point - 1
    let head := match ds.toList with
      | [] => ""
      | [c] => String.singleton c
      | c :: cs => String.singleton c ++ "." ++ String.ofList cs
    head ++ "e" ++ (if e < 0 then "-" else "+") ++ padLeft f.exponentDigits (toString e.natAbs)

/-- The text of a value: its shortest decimal, with the sign of a zero kept. -/
def render : Binary64 → String
  | .nan => "nan"
  | .infinite s => if s then "-inf" else "inf"
  | .finite s m e =>
    let sign := if s then "-" else ""
    if m = 0 then sign ++ "0.0" else sign ++ plain.write (shortest m e)

end Binary64
end RedisGateway
