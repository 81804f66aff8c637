/-!
Binary64 values held exactly: a finite value is a sign, an integer mantissa and a power of two, so
rounding a ratio of integers and reading a decimal text are plain integer arithmetic.
-/

namespace RedisGateway

/-- A binary64 value. A finite one is `± mantissa · 2 ^ exponent` with `mantissa < 2 ^ 53` and
`-1074 ≤ exponent ≤ 971`; the exponent is least among those that hold the value. -/
inductive Binary64 where
  | finite (negative : Bool) (mantissa : Nat) (exponent : Int)
  | infinite (negative : Bool)
  | nan
  deriving DecidableEq, Repr, Inhabited

namespace Binary64

/-- The numerator of `p · 2 ^ e`. -/
def scaleUp (p : Nat) (e : Int) : Nat := p * Nat.pow 2 e.toNat

/-- The quotient of two naturals rounded to the nearest integer, a half to the even neighbour. -/
def roundDiv (p q : Nat) : Nat :=
  let n := p / q
  let r := p % q
  if 2 * r < q then n
  else if q < 2 * r then n + 1
  else if n % 2 = 0 then n else n + 1

/-- The exponent of the grid on which `p / q` is rounded: 53 significant bits, or the subnormal
grid. -/
def gridExponent (p q : Nat) : Int :=
  let e : Int := (p.log2 : Int) - (q.log2 : Int) - 53
  let e' := if Nat.pow 2 53 ≤ scaleUp p (-e) / scaleUp q e then e + 1 else e
  max e' (-1074)

/-- The binary64 value nearest to `± p / q`, for a positive `q`. -/
def ofRatio (negative : Bool) (p q : Nat) : Binary64 :=
  if p = 0 then .finite negative 0 (-1074)
  else
    let e := gridExponent p q
    let m := roundDiv (scaleUp p (-e)) (scaleUp q e)
    let (m, e) := if m = Nat.pow 2 53 then (Nat.pow 2 52, e + 1) else (m, e)
    if 971 < e then .infinite negative else .finite negative m e

/-- The binary64 value nearest to an integer. -/
def ofInt (n : Int) : Binary64 := ofRatio (n < 0) n.natAbs 1

/-- An integer whose nearest binary64 value would be infinite. -/
def exceedsRange (n : Int) : Bool :=
  match ofInt n with
  | .infinite _ => true
  | _ => false

/-- The value nearest to `± digits · 10 ^ exponent`. -/
def ofScientific (negative : Bool) (digits : Nat) (exponent : Int) : Binary64 :=
  if digits = 0 then .finite negative 0 (-1074)
  else
    let size : Int := (Nat.log2 digits : Int) * 30103 / 100000 + exponent
    if 400 < size then .infinite negative
    else if size < -400 then .finite negative 0 (-1074)
    else if 0 ≤ exponent then ofRatio negative (digits * Nat.pow 10 exponent.toNat) 1
    else ofRatio negative digits (Nat.pow 10 (-exponent).toNat)

def isNegative : Binary64 → Bool
  | .finite s _ _ => s
  | .infinite s => s
  | .nan => false

/-- Zero of either sign. -/
def isZero : Binary64 → Bool
  | .finite _ m _ => m = 0
  | _ => false

def isFinite : Binary64 → Bool
  | .finite _ _ _ => true
  | _ => false

/-- At most zero, which a value that is no number never is. -/
def atMostZero : Binary64 → Bool
  | .finite s m _ => s || m = 0
  | .infinite s => s
  | .nan => false

/-- The integer a finite value without a fraction is equal to. -/
def toInt? : Binary64 → Option Int
  | .finite s m e =>
    let sign (n : Nat) : Int := if s then -(n : Int) else n
    if 0 ≤ e then some (sign (scaleUp m e))
    else if m % scaleUp 1 (-e) = 0 then some (sign (m / scaleUp 1 (-e))) else none
  | _ => none

/-- The integer that is left of a finite value without its fraction. -/
def truncate? : Binary64 → Option Int
  | .finite s m e =>
    let n := scaleUp m e / scaleUp 1 (-e)
    some (if s then -(n : Int) else n)
  | _ => none

/-- The quotient by a positive integer, rounded. -/
def divNat (x : Binary64) (n : Nat) : Binary64 :=
  match x with
  | .finite s m e => ofRatio s (scaleUp m e) (scaleUp n (-e))
  | x => x

/-- The negative of a value. -/
def neg : Binary64 → Binary64
  | .finite s m e => .finite (!s) m e
  | .infinite s => .infinite (!s)
  | .nan => .nan

/-- The product of two values, rounded. -/
def mul (x y : Binary64) : Binary64 :=
  match x, y with
  | .finite s m e, .finite s' m' e' =>
    ofRatio (s != s') (scaleUp m e * scaleUp m' e') (scaleUp 1 (-e) * scaleUp 1 (-e'))
  | .nan, _ | _, .nan => .nan
  | x, y =>
    if x.isZero || y.isZero then .nan else .infinite (x.isNegative != y.isNegative)

/-- The sum of two values, rounded. -/
def add (x y : Binary64) : Binary64 :=
  match x, y with
  | .finite s m e, .finite s' m' e' =>
    let signed (s : Bool) (n : Nat) : Int := if s then -(n : Int) else n
    let d := scaleUp 1 (-e)
    let d' := scaleUp 1 (-e')
    let n := signed s (scaleUp m e * d') + signed s' (scaleUp m' e' * d)
    ofRatio (n < 0 || (n = 0 && s && s')) n.natAbs (d * d')
  | .nan, _ | _, .nan => .nan
  | .infinite s, .infinite s' => if s = s' then .infinite s else .nan
  | .infinite s, _ => .infinite s
  | _, .infinite s => .infinite s

/-- Whether a value is greater than `p / q`, for a positive `q`. -/
def exceeds (x : Binary64) (p q : Nat) : Bool :=
  match x with
  | .finite s m e => !s && scaleUp p (-e) < scaleUp m e * q
  | .infinite s => !s
  | .nan => false

end Binary64
end RedisGateway
