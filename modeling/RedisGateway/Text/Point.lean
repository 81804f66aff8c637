/-!
Code points: numbers of which all but the surrogates have a character.
-/

namespace RedisGateway.Text

def isHighSurrogate (n : Nat) : Bool := 0xD800 ≤ n && n ≤ 0xDBFF

def isLowSurrogate (n : Nat) : Bool := 0xDC00 ≤ n && n ≤ 0xDFFF

/-- The character with a code point; one that has none is replaced. -/
def charAt (n : Nat) : Char :=
  if h : n.isValidChar then Char.ofNatAux n h else '\uFFFD'

/-- The text of code points. -/
def ofPoints (ns : List Nat) : String := String.ofList (ns.map charAt)

/-- The code points of a text. -/
def points (s : String) : List Nat := s.toList.map Char.toNat

/-- Whether every code point has a character. -/
def allChars (ns : List Nat) : Bool := ns.all fun n => decide n.isValidChar

@[simp] theorem charAt_toNat (c : Char) : charAt c.toNat = c := by
  have h : c.toNat.isValidChar := c.valid
  rw [charAt, dif_pos h]
  rfl

@[simp] theorem ofPoints_points (s : String) : ofPoints (points s) = s := by
  simp [ofPoints, points, Function.comp_def]

end RedisGateway.Text
