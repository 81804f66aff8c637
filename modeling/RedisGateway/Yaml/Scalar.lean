import RedisGateway.Text.Point
import RedisGateway.Yaml.Cursor

/-!
The scalars of a YAML document: plain, quoted and block scalars as they are written, and the names,
tags and directives beside them.
-/

namespace RedisGateway.Yaml

/-- The content of a scalar, by code points: an escape may denote one that is no character. -/
structure Content where
  points : List Nat := []
  deriving DecidableEq, Repr, Inhabited

namespace Content

def ofList (cs : List Char) : Content := ⟨cs.map Char.toNat⟩

def append (a b : Content) : Content := ⟨a.points ++ b.points⟩

/-- The content as characters, where code points that have none are replaced. -/
def text (c : Content) : List Char := c.points.map Text.charAt

/-- Some code point is no character. -/
def broken (c : Content) : Bool := !Text.allChars c.points

@[simp] theorem text_ofList (cs : List Char) : (ofList cs).text = cs := by
  simp [ofList, text, Function.comp_def]

end Content

/-- Reads something at a place and goes on behind it. -/
abbrev Scan (α : Type) := Cursor → Except Fault (α × Cursor)

/-! ## Names -/

/-- A character of a name. -/
def isNameChar (c : Char) : Bool :=
  Text.isDigit c || ('A' ≤ c && c ≤ 'Z') || ('a' ≤ c && c ≤ 'z') || c = '-' || c = '_'

/-- A name of at least one character. -/
def scanName : Scan (List Char) := fun c =>
  match c.run isNameChar with
  | ([], _) => .error tokenFault
  | (name, c) => .ok (name, c)

/-- The name of an anchor or alias, after its mark. -/
def scanAnchor : Scan String := fun c => do
  let (name, c) ← scanName c.step
  expect (Cursor.endsOr c.peek fun ch =>
    isSpaceOrTab ch || isBreak ch || "?:,]\x7d%@\x60".toList.contains ch)
  return (String.ofList name, c)

def isHexDigit (c : Char) : Bool :=
  Text.isDigit c || ('a' ≤ c && c ≤ 'f') || ('A' ≤ c && c ≤ 'F')

/-- The value of a hexadecimal digit. -/
def hexValue (c : Char) : Nat :=
  if Text.isDigit c then Text.digitValue c
  else if 'a' ≤ c then c.toNat - 87
  else c.toNat - 55

/-- The value of hexadecimal digits. -/
def natOfHex (cs : List Char) : Nat := cs.foldl (fun n c => n * 16 + hexValue c) 0

/-- Exactly `n` hexadecimal digits. -/
def scanHex (n : Nat) : Scan Nat := fun c => do
  let cs := c.rest.take n
  expect (cs.length = n && cs.all isHexDigit)
  return (natOfHex cs, c.steps n)

/-- Bytes that are written with percent signs. -/
def scanEscapedBytes : Nat → Scan (List UInt8)
  | 0, c => .ok ([], c)
  | fuel + 1, c =>
    if c.peek = some '%' then do
      let (n, c) ← scanHex 2 c.step
      let (bs, c) ← scanEscapedBytes fuel c
      return (n.toUInt8 :: bs, c)
    else .ok ([], c)

/-- A character that stands for itself in the location that a tag names. -/
def isUriChar (c : Char) : Bool :=
  isNameChar c || ";/?:@&=+$,.!~*'()[]".toList.contains c

/-- The parts of a location. -/
def scanUriParts : Nat → Scan (List Char)
  | 0, c => .ok ([], c)
  | fuel + 1, c =>
    if c.peek = some '%' then do
      let (bs, c) ← scanEscapedBytes c.rest.length c
      match String.fromUTF8? ⟨bs.toArray⟩ with
      | none => .error tokenFault
      | some s =>
        let (rest, c) ← scanUriParts fuel c
        return (s.toList ++ rest, c)
    else match c.run isUriChar with
      | ([], c) => .ok ([], c)
      | (cs, c) => do
        let (rest, c) ← scanUriParts fuel c
        return (cs ++ rest, c)

/-- A location, which is not empty. -/
def scanUri : Scan String := fun c => do
  expect (c.peek = some '%' || (c.peek.map isUriChar).getD false)
  let (cs, c) ← scanUriParts (c.rest.length + 1) c
  return (String.ofList cs, c)

/-- A handle: an exclamation mark, and a name between it and a second one. -/
def scanHandle : Scan String := fun c => do
  expect (c.peek = some '!')
  let c := c.step
  if c.peek = some ' ' then return ("!", c)
  let (name, c) := c.run isNameChar
  if c.peek = some '!' then return (String.ofList ('!' :: name ++ ['!']), c.step)
  else .error tokenFault

/-- A tag: its handle, if it has one, and what follows the handle. -/
def scanTag : Scan (Option String × String) := fun c => do
  let (tag, c) ←
    if c.peekAt 1 = some '<' then do
      let (uri, c) ← scanUri (c.steps 2)
      expect (c.peek = some '>')
      pure ((none, uri), c.step)
    else if Cursor.tokenEnds (c.peekAt 1) then pure ((none, "!"), c.step)
    else do
      let word := (c.rest.drop 1).takeWhile fun ch => !(ch = ' ' || isBreak ch)
      let (handle, c) ← if word.contains '!' then scanHandle c else pure ("!", c.step)
      let (suffix, c) ← scanUri c
      pure ((some handle, suffix), c)
  expect (Cursor.wordEnds c.peek)
  return (tag, c)

/-! ## Directives -/

/-- What a document says about itself. -/
inductive Directive where
  | version (major minor : Nat)
  | tag (handle start : String)
  | unknown
  deriving DecidableEq, Repr

/-- A numeral of a version. -/
def scanVersionNumber : Scan Nat := fun c =>
  match c.run Text.isDigit with
  | ([], _) => .error tokenFault
  | (ds, c) =>
    if Fault.maxDigits < ds.length then .error (.numeralTooLong ds.length)
    else .ok (Text.natOfDigits ds, c)

def scanVersion : Scan Directive := fun c => do
  let (major, c) ← scanVersionNumber c.skipSpaces
  expect (c.peek = some '.')
  let (minor, c) ← scanVersionNumber c.step
  expect (Cursor.wordEnds c.peek)
  return (.version major minor, c)

def scanTagDirective : Scan Directive := fun c => do
  let (handle, c) ← scanHandle c.skipSpaces
  expect (c.peek = some ' ')
  let (start, c) ← scanUri c.skipSpaces
  expect (Cursor.wordEnds c.peek)
  return (.tag handle start, c)

/-- What may follow on a line that has said all: blanks and a comment. -/
def scanLineEnd : Cursor → Except Fault Cursor := fun c => do
  let c := c.skipSpaces.skipComment
  expect (Cursor.lineEnds c.peek)
  return ((c.lineBreak?.map (·.2)).getD c)

/-- A directive, from its percent sign to the end of its line. -/
def scanDirective : Scan Directive := fun c => do
  let (name, c) ← scanName c.step
  expect (Cursor.wordEnds c.peek)
  let (d, c) ←
    if name = "YAML".toList then scanVersion c
    else if name = "TAG".toList then scanTagDirective c
    else pure (.unknown, c.skipLine)
  return (d, ← scanLineEnd c)

/-! ## Block scalars -/

/-- What becomes of the line breaks at the end of a block scalar. -/
inductive Chomping where
  | clip
  | keep
  | strip
  deriving DecidableEq, Repr

/-- The sign that says what becomes of the last line breaks. -/
def scanChomping (c : Cursor) : Option (Chomping × Cursor) :=
  if c.peek = some '+' then some (.keep, c.step)
  else if c.peek = some '-' then some (.strip, c.step)
  else none

/-- The digit that says how far a block scalar is indented. -/
def scanIncrement : Scan (Option Nat) := fun c =>
  match c.peek with
  | some ch =>
    if Text.isDigit ch then
      if ch = '0' then .error tokenFault else .ok (some (Text.digitValue ch), c.step)
    else .ok (none, c)
  | none => .ok (none, c)

/-- What stands behind the mark of a block scalar. -/
def scanBlockHeader : Scan (Chomping × Option Nat) := fun c => do
  let (header, c) ← match scanChomping c with
    | some (chomping, c) => do
      let (increment, c) ← scanIncrement c
      pure ((chomping, increment), c)
    | none => do
      let (increment, c) ← scanIncrement c
      match increment, scanChomping c with
      | some n, some (chomping, c) => pure ((chomping, some n), c)
      | _, _ => pure ((.clip, increment), c)
  expect (Cursor.wordEnds c.peek)
  return (header, c)

/-- The line breaks before the first line of a block scalar, and the width of the widest indentation
among the lines that are blank. -/
def scanIndentation : Nat → Nat → Cursor → List Char × Nat × Cursor
  | 0, widest, c => ([], widest, c)
  | fuel + 1, widest, c =>
    match c.lineBreak? with
    | some (br, c) =>
      let (brs, widest, c) := scanIndentation fuel widest c
      (br :: brs, widest, c)
    | none =>
      if c.peek = some ' ' then
        let c := c.step
        scanIndentation fuel (max widest c.column) c
      else ([], widest, c)

/-- Goes over spaces up to a column. -/
def indentTo (indent : Nat) (c : Cursor) : Cursor :=
  c.steps (((c.rest.takeWhile (· = ' ')).take (indent - c.column)).length)

/-- The line breaks before the next line of a block scalar, which is indented to a column. -/
def scanBlockBreaks : Nat → Nat → Cursor → List Char × Cursor
  | 0, _, c => ([], c)
  | fuel + 1, indent, c =>
    let c := indentTo indent c
    match c.lineBreak? with
    | some (br, c) =>
      let (brs, c) := scanBlockBreaks fuel indent c
      (br :: brs, c)
    | none => ([], c)

/-- The lines of a block scalar from one line on: their content, and the line breaks after them. -/
def scanBlockLines (folded : Bool) (indent : Nat) :
    Nat → Cursor → List Char × List Char × List Char × Cursor
  | 0, c => ([], [], [], c)
  | fuel + 1, c =>
    let startsBlank := (c.peek.map isSpaceOrTab).getD false
    let (line, c) := c.run fun ch => !isBreak ch
    let (br, c) := match c.lineBreak? with
      | some (br, c) => ([br], c)
      | none => ([], c)
    let (brs, c) := scanBlockBreaks (c.rest.length + 1) indent c
    if c.column = indent && !c.atEnd then
      let joint :=
        if folded && br = ['\n'] && !startsBlank && !((c.peek.map isSpaceOrTab).getD false) then
          if brs.isEmpty then [' '] else []
        else br
      let (more, lastBreak, lastBreaks, c) := scanBlockLines folded indent fuel c
      (line ++ joint ++ brs ++ more, lastBreak, lastBreaks, c)
    else (line, br, brs, c)

/-- A block scalar behind its mark, in a block that is indented to a column. -/
def scanBlockScalar (folded : Bool) (blockIndent : Int) : Scan Content := fun c => do
  let ((chomping, increment), c) ← scanBlockHeader c.step
  let c ← scanLineEnd c
  let least := max 1 (blockIndent + 1).toNat
  let (brs, indent, c) := match increment with
    | none =>
      let (brs, widest, c) := scanIndentation (c.rest.length + 1) 0 c
      (brs, max least widest, c)
    | some n =>
      let indent := least + n - 1
      let (brs, c) := scanBlockBreaks (c.rest.length + 1) indent c
      (brs, indent, c)
  let (text, lastBreak, lastBreaks, c) :=
    if c.column = indent && !c.atEnd then
      let (text, lastBreak, lastBreaks, c) := scanBlockLines folded indent (c.rest.length + 1) c
      (brs ++ text, lastBreak, lastBreaks, c)
    else ([], [], brs, c)
  let tail := match chomping with
    | .strip => []
    | .clip => lastBreak
    | .keep => lastBreak ++ lastBreaks
  return (.ofList (text ++ tail), c)

/-! ## Quoted scalars -/

/-- The character that an escape of one letter stands for. -/
def escapedChar? : Char → Option Char
  | '0' => some '\x00'
  | 'a' => some '\x07'
  | 'b' => some '\x08'
  | 't' => some '\t'
  | '\t' => some '\t'
  | 'n' => some '\n'
  | 'v' => some '\x0b'
  | 'f' => some '\x0c'
  | 'r' => some '\r'
  | 'e' => some '\x1b'
  | ' ' => some ' '
  | '"' => some '"'
  | '\\' => some '\\'
  | '/' => some '/'
  | 'N' => some '\x85'
  | '_' => some '\xa0'
  | 'L' => some '\u2028'
  | 'P' => some '\u2029'
  | _ => none

/-- How many hexadecimal digits follow the letter of an escape. -/
def escapeWidth? : Char → Option Nat
  | 'x' => some 2
  | 'u' => some 4
  | 'U' => some 8
  | _ => none

/-- The line breaks of blank lines inside a quoted scalar. -/
def scanQuotedBreaks : Nat → Scan (List Char)
  | 0, c => .ok ([], c)
  | fuel + 1, c =>
    if c.atDocumentMarker then .error tokenFault
    else
      let c := c.skip isSpaceOrTab
      match c.lineBreak? with
      | some (br, c) => do
        let (brs, c) ← scanQuotedBreaks fuel c
        return (br :: brs, c)
      | none => .ok ([], c)

/-- Blanks and line breaks inside a quoted scalar: one line break is a space, further ones are
kept. -/
def scanQuotedBlanks : Scan (List Char) := fun c => do
  let (blanks, c) := c.run isSpaceOrTab
  expect (!c.atEnd)
  match c.lineBreak? with
  | none => return (blanks, c)
  | some (br, c) =>
    let (brs, c) ← scanQuotedBreaks (c.rest.length + 1) c
    let first := if br ≠ '\n' then [br] else if brs.isEmpty then [' '] else []
    return (first ++ brs, c)

/-- An escape behind its backslash. -/
def scanEscape : Scan Content := fun c =>
  match c.peek with
  | none => .error tokenFault
  | some ch =>
    match escapedChar? ch, escapeWidth? ch with
    | some e, _ => .ok (.ofList [e], c.step)
    | none, some n => do
      let (code, c') ← scanHex n c.step
      if 0x110000 ≤ code then .error (.noCharacter code)
      else return (⟨[code]⟩, c')
    | none, none =>
      match c.lineBreak? with
      | some (_, c) => do
        let (brs, c) ← scanQuotedBreaks (c.rest.length + 1) c
        return (.ofList brs, c)
      | none => .error tokenFault

/-- A quoted scalar from some place inside it up to and with its closing quote. -/
def scanQuoted (double : Bool) : Nat → Scan Content
  | 0, _ => .error tokenFault
  | fuel + 1, c =>
    let add (part : Content) (c : Cursor) := do
      let (more, c) ← scanQuoted double fuel c
      return (part.append more, c)
    match c.peek with
    | none => .error tokenFault
    | some ch =>
      if double && ch = '"' then .ok ({}, c.step)
      else if !double && ch = '\'' then
        if c.peekAt 1 = some '\'' then add (.ofList ['\'']) (c.steps 2) else .ok ({}, c.step)
      else if double && ch = '\\' then do
        let (part, c) ← scanEscape c.step
        add part c
      else if isSpaceOrTab ch || isBreak ch then do
        let (part, c) ← scanQuotedBlanks c
        add (.ofList part) c
      else add (.ofList [ch]) c.step

/-! ## Plain scalars -/

/-- A character that ends a plain scalar inside brackets. -/
def endsInFlow (c : Char) : Bool := ",?[]\x7b\x7d".toList.contains c

/-- A character that ends a plain scalar behind a colon inside brackets. -/
def endsBehindColon (c : Char) : Bool := ",[]\x7b\x7d".toList.contains c

/-- The next word of a plain scalar. -/
def plainWord (flow : Bool) : List Char → List Char
  | [] => []
  | ch :: rest =>
    let behind := rest.head?
    if isSpaceOrTab ch || isBreak ch then []
    else if ch = ':' && (Cursor.tokenEnds behind || (flow && Cursor.endsOr behind endsBehindColon))
    then []
    else if flow && endsInFlow ch then []
    else ch :: plainWord flow rest

/-- Spaces and line breaks after a line break of a plain scalar; nothing in front of a document
marker. -/
def scanPlainBreaks : Nat → Cursor → Option (List Char × Cursor)
  | 0, c => some ([], c)
  | fuel + 1, c =>
    if c.peek = some ' ' then scanPlainBreaks fuel c.step
    else match c.lineBreak? with
      | some (br, c) =>
        if c.atDocumentMarker then none
        else (scanPlainBreaks fuel c).map fun p => (br :: p.1, p.2)
      | none => some ([], c)

/-- Blanks between the words of a plain scalar. -/
structure PlainGap where
  blanks : List Char
  cursor : Cursor
  /-- The gap holds a line break. -/
  broken : Bool

/-- The place where the line breaks in front of a document marker end. -/
def skipToMarker : Nat → Cursor → Cursor
  | 0, c => c
  | fuel + 1, c =>
    if c.atDocumentMarker && c.column = 0 then c
    else if c.peek = some ' ' then skipToMarker fuel c.step
    else match c.lineBreak? with
      | some (_, c) => skipToMarker fuel c
      | none => c

def scanPlainGap (c : Cursor) : PlainGap :=
  let (blanks, c) := c.run (· = ' ')
  match c.lineBreak? with
  | none => ⟨blanks, c, false⟩
  | some (br, c) =>
    if c.atDocumentMarker then ⟨[], c, true⟩
    else match scanPlainBreaks (c.rest.length + 1) c with
      | none => ⟨[], skipToMarker (c.rest.length + 1) c, true⟩
      | some (brs, c) =>
        let first := if br ≠ '\n' then [br] else if brs.isEmpty then [' '] else []
        ⟨first ++ brs, c, true⟩

/-- The words of a plain scalar. The flag says whether it ends behind a line break. -/
def scanPlain (flow : Bool) (indent : Int) : Nat → List Char → Cursor → List Char × Bool × Cursor
  | 0, _, c => ([], false, c)
  | fuel + 1, gap, c =>
    let word := if c.peek = some '#' then [] else plainWord flow c.rest
    if word.isEmpty then ([], false, c)
    else
      let next := scanPlainGap (c.steps word.length)
      if next.blanks.isEmpty || next.cursor.peek = some '#' ||
          (!flow && (next.cursor.column : Int) < indent) then
        (gap ++ word, next.broken, next.cursor)
      else
        let (more, broken, c) := scanPlain flow indent fuel next.blanks next.cursor
        (gap ++ word ++ more, if more.isEmpty then next.broken else broken, c)

end RedisGateway.Yaml
