import RedisGateway.Text.Split

/-!
Patterns: regular sets of texts. A text belongs to a pattern if the pattern that is left after all
its characters takes the empty text.
-/

namespace RedisGateway.Text

/-- A regular set of texts. -/
inductive Pattern where
  /-- No text. -/
  | never
  /-- The empty text. -/
  | blank
  /-- One character of a class. -/
  | one (p : Char → Bool)
  | andThen (a b : Pattern)
  | or (a b : Pattern)
  /-- Any number of texts, one after another. -/
  | many (a : Pattern)

namespace Pattern

/-- Whether the empty text belongs to a pattern. -/
def takesBlank : Pattern → Bool
  | .never => false
  | .blank => true
  | .one _ => false
  | .andThen a b => a.takesBlank && b.takesBlank
  | .or a b => a.takesBlank || b.takesBlank
  | .many _ => true

/-- One pattern after another, where trivial ones leave no trace. -/
def join : Pattern → Pattern → Pattern
  | .never, _ => .never
  | .blank, b => b
  | a, b => .andThen a b

/-- Either of two patterns, where one that takes no text leaves no trace. -/
def either : Pattern → Pattern → Pattern
  | .never, b => b
  | a, .never => a
  | a, b => .or a b

/-- What may follow a character. -/
def after (c : Char) : Pattern → Pattern
  | .never => .never
  | .blank => .never
  | .one p => if p c then .blank else .never
  | .andThen a b =>
    let first := (a.after c).join b
    if a.takesBlank then first.either (b.after c) else first
  | .or a b => (a.after c).either (b.after c)
  | .many a => (a.after c).join (.many a)

/-- Whether a text belongs to a pattern. -/
def accepts (p : Pattern) (cs : List Char) : Bool :=
  (cs.foldl (fun q c => q.after c) p).takesBlank

/-- The character itself. -/
def char (c : Char) : Pattern := .one (· = c)

/-- One of the characters of a text. -/
def oneOf (cs : String) : Pattern := .one fun c => cs.toList.contains c

/-- Exactly this text. -/
def text (s : String) : Pattern := s.toList.foldr (fun c p => .andThen (char c) p) .blank

/-- One of several texts. -/
def oneOfTexts (ss : List String) : Pattern := ss.foldr (fun s p => .or (text s) p) .never

/-- One pattern after another. -/
def all (ps : List Pattern) : Pattern := ps.foldr .andThen .blank

/-- One of several patterns. -/
def any (ps : List Pattern) : Pattern := ps.foldr .or .never

/-- The pattern or the empty text. -/
def maybe (p : Pattern) : Pattern := .or p .blank

/-- One or more texts of a pattern. -/
def some (p : Pattern) : Pattern := .andThen p (.many p)

/-- Exactly `n` texts of a pattern. -/
def times (n : Nat) (p : Pattern) : Pattern := all (List.replicate n p)

/-- A decimal digit. -/
def digit : Pattern := .one isDigit

/-- One character from a first one up to a last one, or one of some others. -/
def range (first last : Char) (others : String) : Pattern :=
  .one fun c => (first ≤ c && c ≤ last) || others.toList.contains c

end Pattern
end RedisGateway.Text
