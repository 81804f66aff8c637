import RedisGateway.Text.Quoted
import RedisGateway.Yaml.Cursor
import RedisGateway.Yaml.Tag

/-!
Writing records as YAML in blocks: a text is plain where it can be read back as a text, else in
quotes, and lines are folded at spaces beyond a width of 80.
-/

namespace RedisGateway.Yaml

/-- A value that is written. -/
inductive Leaf where
  | flag (b : Bool)
  | whole (n : Int)
  | text (s : String)
  deriving DecidableEq, Repr

/-- What stands behind a key: a value, or entries that are indented further. -/
inductive Entry where
  | leaf (l : Leaf)
  | group (leaves : List (String × Leaf))
  deriving DecidableEq, Repr

namespace Writer

/-- The width beyond which lines are folded. -/
def width : Nat := 80

/-- The columns by which each level is indented. -/
def indentation : Nat := 2

/-! ## Which style a text takes -/

/-- How a text may be written. -/
inductive Style where
  | plain
  | single
  | double
  deriving DecidableEq, Repr

/-- A blank of any kind, or no character at all. -/
def isGap (o : Option Char) : Bool :=
  Cursor.tokenEnds o || o = some '\x00' || o = some '\r'

/-- A character that is written as an escape only. -/
def isSpecial (c : Char) : Bool :=
  !(c = '\n' || (0x20 ≤ c.toNat && c.toNat ≤ 0x7E) || c = '\x85' ||
    (0xA0 ≤ c.toNat && c.toNat ≠ 0xFEFF && c.toNat ≠ 0xFFFE && c.toNat ≠ 0xFFFF))

/-- A first character that would be read as a mark. -/
def marksAtStart (c : Char) (next : Option Char) : Bool :=
  "#,[]\x7b\x7d&*!|>'\"%@\x60".toList.contains c ||
    ((c = '?' || c = ':' || c = '-') && isGap next)

/-- A colon in front of a blank, or a number sign behind one, beyond the first character. -/
def marksInside : Char → List Char → Bool
  | _, [] => false
  | before, c :: rest =>
    (c = ':' && isGap rest.head?) || (c = '#' && isGap (some before)) || marksInside c rest

/-- A plain text would be read as something else. -/
def hasMarks (cs : List Char) : Bool :=
  "---".toList.isPrefixOf cs || "...".toList.isPrefixOf cs ||
    match cs with
    | [] => false
    | c :: rest => marksAtStart c rest.head? || marksInside c rest

/-- Two neighbours of which the first satisfies `p` and the second `q`. -/
def hasPair (p q : Char → Bool) : List Char → Bool
  | a :: b :: rest => (p a && q b) || hasPair p q (b :: rest)
  | _ => false

/-- A text begins or ends with a space or a line break. -/
def hasBlankEnds (cs : List Char) : Bool :=
  let blank (o : Option Char) : Bool := (o.map fun c => c = ' ' || isBreak c).getD false
  blank cs.head? || blank cs.getLast?

/-- A text that can be written without quotes in a block. -/
def allowsPlain (cs : List Char) : Bool :=
  !hasBlankEnds cs && !cs.any isBreak && !cs.any isSpecial && !hasMarks cs

/-- A text that can be written between single quotes. -/
def allowsSingle (cs : List Char) : Bool :=
  !cs.any isSpecial && !hasPair isBreak (· = ' ') cs && !hasPair (· = ' ') isBreak cs

/-- The style of a text. -/
def styleOf (cs : List Char) : Style :=
  if allowsPlain cs && !Tag.reserved.accepts cs then .plain
  else if cs.contains '\'' || cs.contains '\n' then .double
  else if allowsSingle cs then .single
  else .double

/-! ## Lines -/

/-- What was written, latest first, and the column behind it. -/
structure Pen where
  written : List Char := []
  column : Nat := 0
  deriving Repr

/-- Writes characters on the line. -/
def Pen.put (p : Pen) (cs : List Char) : Pen :=
  { written := cs.reverse ++ p.written, column := p.column + cs.length }

/-- Goes to the next line, with its indentation. -/
def Pen.newLine (p : Pen) (indent : Nat) : Pen :=
  { written := List.replicate indent ' ' ++ '\n' :: p.written, column := indent }

/-- Runs of spaces, of line breaks, and of other characters. -/
def runs (cs : List Char) : List (List Char) :=
  let kind (c : Char) : Nat := if c = ' ' then 0 else if isBreak c then 1 else 2
  cs.splitBy fun a b => kind a = kind b

/-- A run of spaces or of line breaks. -/
def isSpaces (run : List Char) : Bool := run.head? = some ' '

def isBreaks (run : List Char) : Bool := (run.head?.map isBreak).getD false

/-- Writes the runs of a plain text. A single space at the width or beyond it becomes a new line,
and a word that would end beyond the width begins one. -/
def putPlain (indent : Nat) (p : Pen) : List (List Char) → Pen
  | [] => p
  | run :: rest =>
    let p :=
      if isSpaces run then
        if run.length = 1 && width ≤ p.column then p.newLine indent else p.put run
      else if width < p.column + run.length && indent < p.column then (p.newLine indent).put run
      else p.put run
    putPlain indent p rest

/-- Writes line breaks as they are, and goes to the indentation. -/
def Pen.putBreaks (p : Pen) (indent : Nat) (brs : List Char) : Pen :=
  { written := List.replicate indent ' ' ++ brs.reverse ++ p.written, column := indent }

/-- Writes the runs of a text between single quotes. -/
def putSingle (indent : Nat) (first : Bool) (p : Pen) : List (List Char) → Pen
  | [] => p
  | run :: rest =>
    let p :=
      if isSpaces run then
        if run.length = 1 && width < p.column && !first && !rest.isEmpty then p.newLine indent
        else p.put run
      else if isBreaks run then p.putBreaks indent run
      else p.put run
    putSingle indent false p rest

/-- The letter of an escape that has one of its own. -/
def escapeLetter? : Char → Option Char
  | '\x00' => some '0'
  | '\x07' => some 'a'
  | '\x08' => some 'b'
  | '\t' => some 't'
  | '\n' => some 'n'
  | '\x0b' => some 'v'
  | '\x0c' => some 'f'
  | '\r' => some 'r'
  | '\x1b' => some 'e'
  | '"' => some '"'
  | '\\' => some '\\'
  | '\x85' => some 'N'
  | '\xa0' => some '_'
  | '\u2028' => some 'L'
  | '\u2029' => some 'P'
  | _ => none

/-- A character that stands for itself between double quotes. -/
def isSafe (c : Char) : Bool :=
  let n := c.toNat
  !("\"\\\x85\u2028\u2029\uFEFF".toList.contains c) &&
    ((0x20 ≤ n && n ≤ 0x7E) || (0xA0 ≤ n && n ≤ 0xD7FF) || (0xE000 ≤ n && n ≤ 0xFFFD) ||
      0x10000 ≤ n)

/-- The escape of a character. -/
def escape (c : Char) : List Char :=
  let upper (width : Nat) : List Char := (Text.hexDigits width c.toNat).map Char.toUpper
  match escapeLetter? c with
  | some l => ['\\', l]
  | none =>
    if c.toNat ≤ 0xFF then '\\' :: 'x' :: upper 2
    else if c.toNat ≤ 0xFFFF then '\\' :: 'u' :: upper 4
    else '\\' :: 'U' :: upper 8

/-- Goes to the next line between double quotes, behind a backslash if the fold is marked. -/
def Pen.fold (p : Pen) (indent : Nat) (marked : Bool) : Pen :=
  (if marked then p.put ['\\'] else p).newLine indent

/-- Whether a single space behind an escaped character stands for a fold. -/
def spaceFolds (escaped : Char) : List Char → Bool
  | ' ' :: c :: _ => c ≠ ' ' && escaped ≠ '\n' && escaped ≠ '"'
  | _ => false

/-- Writes a text between double quotes. `held` are the characters, latest first, that stand for
themselves and wait to be written, `before` is the character before those that are left, and
`folded` says that a fold stands for the next one. A line may be folded at a space, behind an
escape, and where nothing is held, but neither at the first character nor at the last. A single
space at which a line is folded stands for the fold; any other fold is marked by a backslash, and a
space that begins a line has one in front of it. -/
def putDouble (indent : Nat) (p : Pen) (before : Option Char) (held : List Char) (folded : Bool) :
    List Char → Pen
  | [] => p.put held.reverse
  | c :: rest =>
    let go (p : Pen) (held : List Char) (folded : Bool) : Pen :=
      putDouble indent p (some c) held folded rest
    let inside := before.isSome && !rest.isEmpty
    if folded then go p [] false
    else if isSafe c then
      if inside && (c = ' ' || held.isEmpty) && width < p.column + held.length then
        let marked := held.isEmpty || before = some ' ' || rest.head? = some ' '
        let p := (p.put held.reverse).fold indent marked
        if c ≠ ' ' then go p [c] false
        else if marked then go (p.put ['\\']) [c] false
        else go p [] false
      else go p (c :: held) false
    else
      let p := (p.put held.reverse).put (escape c)
      if inside && width + 1 < p.column then
        if spaceFolds c rest then go (p.fold indent false) [] true
        else
          let p := p.fold indent true
          go (if rest.head? = some ' ' then p.put ['\\'] else p) [] false
      else go p [] false

/-- Writes a text behind its key. -/
def putText (indent : Nat) (p : Pen) (cs : List Char) : Pen :=
  match styleOf cs with
  | .plain => putPlain indent (p.put [' ']) (runs cs)
  | .single => (putSingle indent true (p.put [' ', '\'']) (runs cs)).put ['\'']
  | .double => (putDouble indent (p.put [' ', '"']) none [] false cs).put ['"']

/-- Writes a value behind its key. -/
def putLeaf (indent : Nat) (p : Pen) : Leaf → Pen
  | .flag b => p.put (' ' :: (if b then "true" else "false").toList)
  | .whole n => putPlain indent (p.put [' ']) [(toString n).toList]
  | .text s => putText indent p s.toList

/-- Writes a key and its colon. -/
def putKey (indent : Nat) (key : String) : Pen :=
  ({} : Pen).put (List.replicate indent ' ' ++ key.toList ++ [':'])

/-- The line, or the lines, of a value. -/
def leafLine (indent : Nat) (e : String × Leaf) : String :=
  let p := putLeaf (indent + indentation) (putKey indent e.1) e.2
  String.ofList p.written.reverse ++ "\n"

/-- The lines of an entry. -/
def entryLines : String × Entry → String
  | (key, .leaf l) => leafLine 0 (key, l)
  | (key, .group ls) => key ++ ":\n" ++ String.join (ls.map (leafLine indentation))

/-- The text of a record. -/
def write (es : List (String × Entry)) : String := String.join (es.map entryLines)

end Writer
end RedisGateway.Yaml
