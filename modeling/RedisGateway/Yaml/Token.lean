import RedisGateway.Yaml.Scalar

/-!
The tokens of a YAML document. A line that may be a mapping's key is known to be one only when its
colon is met, and the tokens in front of it are then added where the key began.
-/

namespace RedisGateway.Yaml

/-- A token. -/
inductive Token where
  | directive (d : Directive)
  | documentStart
  | documentEnd
  | blockSequenceStart
  | blockMappingStart
  | blockEnd
  | flowSequenceStart
  | flowSequenceEnd
  | flowMappingStart
  | flowMappingEnd
  | blockEntry
  | flowEntry
  | key
  | value
  | reference (name : String)
  | anchor (name : String)
  | tag (handle : Option String) (suffix : String)
  | scalar (content : Content) (plain : Bool)
  | streamEnd
  deriving DecidableEq, Repr

/-- A place where a key without a mark of its own may have begun. -/
structure PossibleKey where
  /-- How many tokens come before it. -/
  position : Nat
  /-- Nothing else can stand in its place. -/
  required : Bool
  index : Nat
  line : Nat
  column : Nat
  deriving Repr

/-- The state of taking a document apart. -/
structure Scanner where
  cursor : Cursor
  /-- How many brackets are open. -/
  flow : Int := 0
  /-- The column of the innermost block, and those of the blocks around it. -/
  indent : Int := -1
  indents : List Int := []
  /-- A key without a mark of its own may begin here. -/
  keyAllowed : Bool := true
  /-- The places where keys may have begun, by how many brackets are open. -/
  keys : List (Int × PossibleKey) := []
  tokens : List Token := []
  deriving Repr

namespace Scanner

def inFlow (s : Scanner) : Bool := s.flow ≠ 0

def emit (s : Scanner) (t : Token) : Scanner := { s with tokens := s.tokens ++ [t] }

def insert (s : Scanner) (position : Nat) (t : Token) : Scanner :=
  { s with tokens := s.tokens.take position ++ t :: s.tokens.drop position }

/-- Goes over `n` characters. -/
def forward (s : Scanner) (n : Nat) : Scanner := { s with cursor := s.cursor.steps n }

/-- A key has to be on one line and within 1024 characters of its colon. -/
def isStale (s : Scanner) (k : PossibleKey) : Bool :=
  k.line ≠ s.cursor.line || 1024 < s.cursor.index - k.index

/-- Forgets keys that can no longer be any. -/
def dropStale (s : Scanner) : Except Fault Scanner :=
  if s.keys.any fun k => s.isStale k.2 && k.2.required then .error tokenFault
  else .ok { s with keys := s.keys.filter fun k => !s.isStale k.2 }

/-- Forgets the possible key inside the innermost brackets. -/
def dropKey (s : Scanner) : Except Fault Scanner :=
  match s.keys.lookup s.flow with
  | some k =>
    if k.required then .error tokenFault
    else .ok { s with keys := s.keys.filter (·.1 ≠ s.flow) }
  | none => .ok s

/-- A key may begin here. -/
def noteKey (s : Scanner) : Except Fault Scanner :=
  if s.keyAllowed then do
    let s ← s.dropKey
    let c := s.cursor
    let k : PossibleKey :=
      { position := s.tokens.length, required := !s.inFlow && s.indent = c.column
        index := c.index, line := c.line, column := c.column }
    return { s with keys := s.keys ++ [(s.flow, k)] }
  else .ok s

/-- Ends the blocks that are indented further than a column. -/
def unwind (column : Int) : List Int → Scanner → Scanner
  | outer, s =>
    if s.inFlow || s.indent ≤ column then s
    else match outer with
      | [] => s
      | i :: rest => unwind column rest { s.emit .blockEnd with indent := i, indents := rest }

def unwindTo (s : Scanner) (column : Int) : Scanner := unwind column s.indents s

/-- Begins a block at a column, unless the innermost one is indented as far. -/
def addIndent (s : Scanner) (column : Int) : Bool × Scanner :=
  if s.indent < column then (true, { s with indents := s.indent :: s.indents, indent := column })
  else (false, s)

/-- Goes to the next token. A new line allows a key outside brackets. -/
def skipBlanks : Nat → Scanner → Scanner
  | 0, s => s
  | fuel + 1, s =>
    let c := s.cursor.skipSpaces.skipComment
    match c.lineBreak? with
    | some (_, c) =>
      skipBlanks fuel { s with cursor := c, keyAllowed := s.keyAllowed || !s.inFlow }
    | none => { s with cursor := c }

/-- Goes to the next token; a byte order mark may stand at the very beginning. -/
def toNextToken (s : Scanner) : Scanner :=
  let s := if s.cursor.index = 0 && s.cursor.peek = some byteOrderMark then s.forward 1 else s
  s.skipBlanks (s.cursor.rest.length + 1)

/-- What stands by itself at the beginning of a line ends all blocks. -/
def atMargin (s : Scanner) : Except Fault Scanner := do
  let s ← (s.unwindTo (-1)).dropKey
  return { s with keyAllowed := false }

/-- A mark of `n` characters in front of which no key can have begun. -/
def fetchMark (s : Scanner) (t : Token) (n : Nat) (keyAllowed : Bool) : Except Fault Scanner := do
  let s ← s.dropKey
  return ({ s with keyAllowed }.forward n).emit t

def fetchStreamEnd (s : Scanner) : Except Fault Scanner := do
  let s ← s.atMargin
  return { s with keys := [] }.emit .streamEnd

def fetchDirective (s : Scanner) : Except Fault Scanner := do
  let s ← s.atMargin
  let (d, cursor) ← scanDirective s.cursor
  return { s with cursor }.emit (.directive d)

def fetchDocumentMarker (s : Scanner) (t : Token) : Except Fault Scanner := do
  let s ← s.atMargin
  return (s.forward 3).emit t

def fetchFlowStart (s : Scanner) (t : Token) : Except Fault Scanner := do
  let s ← s.noteKey
  return ({ s with flow := s.flow + 1, keyAllowed := true }.forward 1).emit t

def fetchFlowEnd (s : Scanner) (t : Token) : Except Fault Scanner := do
  let s ← s.dropKey
  return ({ s with flow := s.flow - 1, keyAllowed := false }.forward 1).emit t

/-- A mark that may begin a block. -/
def fetchBlockMark (s : Scanner) (t blockStart : Token) (keyAllowed : Bool) :
    Except Fault Scanner := do
  if s.inFlow then s.fetchMark t 1 keyAllowed
  else if !s.keyAllowed then .error tokenFault
  else
    let (begun, s) := s.addIndent s.cursor.column
    let s := if begun then s.emit blockStart else s
    s.fetchMark t 1 keyAllowed

def fetchBlockEntry (s : Scanner) : Except Fault Scanner :=
  s.fetchBlockMark .blockEntry .blockSequenceStart true

def fetchKey (s : Scanner) : Except Fault Scanner :=
  s.fetchBlockMark .key .blockMappingStart (!s.inFlow)

/-- A colon makes a key of what may have begun one. -/
def fetchValue (s : Scanner) : Except Fault Scanner :=
  match s.keys.lookup s.flow with
  | some k =>
    let s := { s with keys := s.keys.filter (·.1 ≠ s.flow) }.insert k.position .key
    let s := if s.inFlow then s else
      let (begun, s) := s.addIndent k.column
      if begun then s.insert k.position .blockMappingStart else s
    .ok (({ s with keyAllowed := false }.forward 1).emit .value)
  | none => s.fetchBlockMark .value .blockMappingStart (!s.inFlow)

/-- A token of several characters that may begin a key. -/
def fetchAtom (s : Scanner) (scan : Scan Token) : Except Fault Scanner := do
  let s ← s.noteKey
  let (t, cursor) ← scan s.cursor
  return { s with cursor, keyAllowed := false }.emit t

def fetchQuoted (s : Scanner) (double : Bool) : Except Fault Scanner :=
  s.fetchAtom fun c => do
    let (content, c) ← scanQuoted double (c.rest.length + 1) c.step
    return (.scalar content false, c)

def fetchBlockScalar (s : Scanner) (folded : Bool) : Except Fault Scanner := do
  let s ← s.dropKey
  let (content, cursor) ← scanBlockScalar folded s.indent s.cursor
  return { s with cursor, keyAllowed := true }.emit (.scalar content false)

def fetchPlain (s : Scanner) : Except Fault Scanner := do
  let s ← s.noteKey
  let c := s.cursor
  let (text, broken, cursor) := scanPlain s.inFlow (s.indent + 1) (c.rest.length + 1) [] c
  return { s with cursor, keyAllowed := broken }.emit (.scalar (.ofList text) true)

/-- Marks with which no plain scalar begins. -/
def isIndicator (c : Char) : Bool := "-?:,[]\x7b\x7d#&*!|>'\"%@\x60".toList.contains c

/-- Whether a plain scalar begins at a place. -/
def beginsPlain (s : Scanner) (ch : Char) : Bool :=
  !(isSpaceOrTab ch || isBreak ch || isIndicator ch) ||
    (!Cursor.tokenEnds (s.cursor.peekAt 1) &&
      (ch = '-' || (!s.inFlow && (ch = '?' || ch = ':'))))

/-- The next token, and those that come with it. -/
def fetch (s : Scanner) : Except Fault Scanner := do
  let s ← s.toNextToken.dropStale
  let s := s.unwindTo s.cursor.column
  let c := s.cursor
  match c.peek with
  | none => s.fetchStreamEnd
  | some ch =>
    let margin := c.column = 0
    let spaced := Cursor.tokenEnds (c.peekAt 1)
    if ch = '%' && margin then s.fetchDirective
    else if margin && c.hasMarker "---" then s.fetchDocumentMarker .documentStart
    else if margin && c.hasMarker "..." then s.fetchDocumentMarker .documentEnd
    else if ch = '[' then s.fetchFlowStart .flowSequenceStart
    else if ch = '\x7b' then s.fetchFlowStart .flowMappingStart
    else if ch = ']' then s.fetchFlowEnd .flowSequenceEnd
    else if ch = '\x7d' then s.fetchFlowEnd .flowMappingEnd
    else if ch = ',' then s.fetchMark .flowEntry 1 true
    else if ch = '-' && spaced then s.fetchBlockEntry
    else if ch = '?' && (s.inFlow || spaced) then s.fetchKey
    else if ch = ':' && (s.inFlow || spaced) then s.fetchValue
    else if ch = '*' then s.fetchAtom fun c => do
      let (name, c) ← scanAnchor c
      return (.reference name, c)
    else if ch = '&' then s.fetchAtom fun c => do
      let (name, c) ← scanAnchor c
      return (.anchor name, c)
    else if ch = '!' then s.fetchAtom fun c => do
      let ((handle, suffix), c) ← scanTag c
      return (.tag handle suffix, c)
    else if ch = '|' && !s.inFlow then s.fetchBlockScalar false
    else if ch = '>' && !s.inFlow then s.fetchBlockScalar true
    else if ch = '\'' then s.fetchQuoted false
    else if ch = '"' then s.fetchQuoted true
    else if s.beginsPlain ch then s.fetchPlain
    else .error tokenFault

/-- The tokens that are certain: those in front of the first place where a key may have begun. -/
def certain (s : Scanner) : List Token :=
  match (s.keys.map (·.2.position)).min? with
  | some n => s.tokens.take n
  | none => s.tokens

/-- Whether everything has been taken apart. -/
def isDone (s : Scanner) : Bool := s.tokens.getLast? = some .streamEnd

/-- Takes apart what is left, as far as it goes. What was certain before the last step comes with a
fault. -/
def scanAll : Nat → List Token → Scanner → List Token × Option Fault
  | 0, _, s => (s.tokens, none)
  | fuel + 1, known, s =>
    if s.isDone then (s.tokens, none)
    else match s.dropStale with
      | .error f => (known, some f)
      | .ok s => match s.fetch with
        | .error f => (s.certain, some f)
        | .ok next => scanAll fuel s.certain next

end Scanner

/-- The tokens of a document, and the fault behind them if it cannot be taken apart further. -/
def tokens (cs : List Char) : List Token × Option Fault :=
  ({ cursor := { rest := cs } } : Scanner).scanAll (2 * cs.length + 2) []

end RedisGateway.Yaml
