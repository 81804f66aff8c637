import RedisGateway.Text.Letter
import RedisGateway.Text.Point

/-!
Texts in lower case.
-/

namespace RedisGateway.Text

/-- The lower case of an ASCII letter; any other character is kept. -/
def lowerAscii (c : Char) : Char :=
  if 'A' ≤ c && c ≤ 'Z' then Char.ofNat (c.toNat + 32) else c

/-- A text with its ASCII letters in lower case. -/
def lowerAsciiText (s : String) : String := String.ofList (s.toList.map lowerAscii)

/-- Whether the characters that go away from a letter on one side begin with a cased letter, but for
those that part no letters. -/
def meetsCased (ns : List Nat) : Bool :=
  ((ns.dropWhile isIgnorable).head?.map isCased).getD false

/-- A small sigma: the final one at the end of a word, behind a letter and in front of none. -/
def smallSigma (before after : List Nat) : Char :=
  if meetsCased before && !meetsCased after then 'ς' else 'σ'

/-- The lower case of code points; `before` holds those in front of them, the nearest first. A
capital I with a dot becomes a small i and a dot above it. -/
def lowerAfter (before : List Nat) : List Nat → List Nat
  | [] => []
  | n :: ns =>
    let small :=
      if n = 'Σ'.toNat then [(smallSigma before ns).toNat]
      else if n = 'İ'.toNat then ['i'.toNat, 0x307]
      else [(smallLetter? n).getD n]
    small ++ lowerAfter (n :: before) ns

/-- Code points in lower case. -/
def lowerPoints (ns : List Nat) : List Nat := lowerAfter [] ns

/-- A text in lower case. -/
def lower (s : String) : String := ofPoints (lowerPoints (points s))

end RedisGateway.Text
