import RedisGateway.Fault
import RedisGateway.Text.Split

/-!
A place in the text of a YAML document.
-/

namespace RedisGateway.Yaml

/-- A line break. -/
def isBreak (c : Char) : Bool := c = '\n' || c = '\x85' || c = '\u2028' || c = '\u2029'

def isSpaceOrTab (c : Char) : Bool := c = ' ' || c = '\t'

/-- The byte order mark, which has no width. -/
def byteOrderMark : Char := '\uFEFF'

/-- A place in a text: what follows it, and how much lies before it. -/
structure Cursor where
  rest : List Char
  index : Nat := 0
  line : Nat := 0
  column : Nat := 0
  deriving Repr

namespace Cursor

/-- Goes over one character. -/
def step (c : Cursor) : Cursor :=
  match c.rest with
  | [] => c
  | ch :: rest =>
    if isBreak ch then { rest, index := c.index + 1, line := c.line + 1, column := 0 }
    else
      { c with
        rest, index := c.index + 1
        column := if ch = byteOrderMark then c.column else c.column + 1 }

/-- Goes over `n` characters. -/
def steps : Nat → Cursor → Cursor
  | 0, c => c
  | n + 1, c => steps n c.step

def peek (c : Cursor) : Option Char := c.rest.head?

def peekAt (c : Cursor) (n : Nat) : Option Char := c.rest[n]?

def atEnd (c : Cursor) : Bool := c.rest.isEmpty

/-- The longest run of characters of a class, and the place after it. -/
def run (c : Cursor) (p : Char → Bool) : List Char × Cursor :=
  let cs := c.rest.takeWhile p
  (cs, c.steps cs.length)

/-- The place after the longest run of characters of a class. -/
def skip (c : Cursor) (p : Char → Bool) : Cursor := (c.run p).2

/-- Goes over spaces. -/
def skipSpaces (c : Cursor) : Cursor := c.skip (· = ' ')

/-- Goes to the end of the line. -/
def skipLine (c : Cursor) : Cursor := c.skip fun ch => !isBreak ch

/-- Goes over a comment, if there is one. -/
def skipComment (c : Cursor) : Cursor := if c.peek = some '#' then c.skipLine else c

/-- The line break at a place, as it counts in a scalar, and the place after it. -/
def lineBreak? (c : Cursor) : Option (Char × Cursor) :=
  match c.peek with
  | some ch =>
    if ch = '\n' || ch = '\x85' then some ('\n', c.step)
    else if isBreak ch then some (ch, c.step)
    else none
  | none => none

/-- Whether `p` holds of the character at a place, or the text ends there. -/
def endsOr (o : Option Char) (p : Char → Bool) : Bool :=
  match o with
  | none => true
  | some ch => p ch

/-- The end of the text or of a line. -/
def lineEnds (o : Option Char) : Bool := endsOr o isBreak

/-- The end of the text or of a line, or a space. -/
def wordEnds (o : Option Char) : Bool := endsOr o fun ch => ch = ' ' || isBreak ch

/-- The end of the text or of a line, or a space or tab. -/
def tokenEnds (o : Option Char) : Bool := endsOr o fun ch => isSpaceOrTab ch || isBreak ch

/-- The text goes on with a marker of three characters that is followed by a blank. -/
def hasMarker (c : Cursor) (marker : String) : Bool :=
  marker.toList.isPrefixOf c.rest && tokenEnds (c.peekAt 3)

/-- A line that starts or ends a document. -/
def atDocumentMarker (c : Cursor) : Bool := c.hasMarker "---" || c.hasMarker "..."

end Cursor

/-- A character that a document may hold. -/
def isAllowed (c : Char) : Bool :=
  let n := c.toNat
  n = 9 || n = 10 || n = 13 || (0x20 ≤ n && n ≤ 0x7E) || n = 0x85 || (0xA0 ≤ n && n ≤ 0xD7FF) ||
    (0xE000 ≤ n && n ≤ 0xFFFD) || 0x10000 ≤ n

/-- A fault of a document that cannot be taken apart into tokens. -/
def tokenFault : Fault := .malformedDocument .token

/-- What must hold at a place of a document. -/
def expect (b : Bool) : Except Fault Unit := if b then .ok () else .error tokenFault

end RedisGateway.Yaml
