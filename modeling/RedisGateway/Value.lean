import RedisGateway.ConnectionOptions
import RedisGateway.Duration
import RedisGateway.Text.Blank

/-!
The values that options, command arguments, replies and settings documents are made of, and the
texts that show them.
-/

namespace RedisGateway

/-- A value whose type is known only when it is used. -/
inductive Value where
  | none
  | flag (b : Bool)
  | whole (n : Int)
  | real (x : Binary64)
  | text (s : String)
  /-- Code points of which some are no characters. -/
  | brokenText (codePoints : List Nat)
  | bytes (bs : List UInt8)
  | list (vs : List Value)
  | tuple (vs : List Value)
  | set (vs : List Value)
  | record (entries : List (Value × Value))
  | duration (d : Duration)
  | options (o : ConnectionOptions)
  /-- A date or a point in time, by its text. -/
  | moment (s : String)
  deriving Repr, Inhabited

/-- A text that may be broken: characters, or code points of which some are no characters. -/
inductive LooseText where
  | plain (s : String)
  | broken (codePoints : List Nat)
  deriving DecidableEq, Repr

namespace LooseText

/-- The text as a value. -/
def value : LooseText → Value
  | .plain s => .text s
  | .broken ns => .brokenText ns

/-- Blank characters only, among which nothing is that is no character. -/
def allBlank : LooseText → Bool
  | .plain s => Text.allBlank s
  | .broken _ => false

def quoted : LooseText → String
  | .plain s => Text.quoted s
  | .broken ns => Text.quotedPoints ns

end LooseText

namespace Value

/-- The text that a value is, broken or not, if it is one. -/
def looseText? : Value → Option LooseText
  | .text s => some (.plain s)
  | .brokenText ns => some (.broken ns)
  | _ => Option.none

/-- The text that a value is, if it is one. -/
def text? : Value → Option String
  | .text s => some s
  | _ => Option.none

def isText (s : String) (v : Value) : Bool := v.text? == some s

/-- Everything holds but nothing, zero, the empty text and empty collections. -/
def holds : Value → Bool
  | .none => false
  | .flag b => b
  | .whole n => n ≠ 0
  | .real x => !x.isZero
  | .text s => !s.isEmpty
  | .brokenText _ => true
  | .bytes bs => !bs.isEmpty
  | .list vs => !vs.isEmpty
  | .tuple vs => !vs.isEmpty
  | .set vs => !vs.isEmpty
  | .record es => !es.isEmpty
  | .duration d => d.microseconds ≠ 0
  | .options _ => true
  | .moment _ => true

/-- Code points as a value: a text, unless some of them are no characters. -/
def ofPoints (ns : List Nat) : Value :=
  if Text.allChars ns then .text (Text.ofPoints ns) else .brokenText ns

/-- A record whose keys are texts. -/
def ofFields (fields : List (String × Value)) : Value :=
  .record (fields.map fun p => (.text p.1, p.2))

mutual

/-- The text that shows a value inside another one: texts are quoted. -/
def describe : Value → String
  | .none => "None"
  | .flag b => if b then "True" else "False"
  | .whole n => toString n
  | .real x => x.render
  | .text s => Text.quoted s
  | .brokenText ns => Text.quotedPoints ns
  | .bytes bs => Text.quotedBytes bs
  | .list vs => "[" ++ ", ".intercalate (describeAll vs) ++ "]"
  | .tuple [v] => "(" ++ describe v ++ ",)"
  | .tuple vs => "(" ++ ", ".intercalate (describeAll vs) ++ ")"
  | .set [] => "set()"
  | .set vs => "\x7b" ++ ", ".intercalate (describeAll vs) ++ "\x7d"
  | .record es => "\x7b" ++ ", ".intercalate (describeEntries es) ++ "\x7d"
  | .duration d => d.describe
  | .options o => o.describe
  | .moment s => s

def describeAll : List Value → List String
  | [] => []
  | v :: vs => describe v :: describeAll vs

def describeEntries : List (Value × Value) → List String
  | [] => []
  | (k, v) :: es => (describe k ++ ": " ++ describe v) :: describeEntries es

end

/-- The text that shows a value on its own: a text as it is, a span of time as a clock reading,
options as their fields. -/
def display : Value → String
  | .text s => s
  | .duration d => d.clock
  | .options o => o.display
  | v => v.describe

end Value
end RedisGateway
