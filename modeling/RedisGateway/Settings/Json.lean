import RedisGateway.Members
import RedisGateway.Text.Split

/-!
Reading JSON. Besides the standard the reader takes `NaN`, `Infinity` and `-Infinity` for numbers; a
numeral of more digits than are ever converted is refused.
-/

namespace RedisGateway.Json

def isSpace (c : Char) : Bool := c = ' ' || c = '\t' || c = '\n' || c = '\r'

def skipSpace (cs : List Char) : List Char := cs.dropWhile isSpace

/-- The value of a hexadecimal digit. -/
def hexValue? (c : Char) : Option Nat :=
  if Text.isDigit c then some (Text.digitValue c)
  else if 'a' ≤ c && c ≤ 'f' then some (c.toNat - 87)
  else if 'A' ≤ c && c ≤ 'F' then some (c.toNat - 55)
  else none

/-- The number that the first `n` characters denote in hexadecimal, and what follows them. -/
def hex? : Nat → List Char → Option (Nat × List Char)
  | 0, cs => some (0, cs)
  | n + 1, c :: cs => do
    let v ← hexValue? c
    let (rest, cs) ← hex? n cs
    return (v * Nat.pow 16 n + rest, cs)
  | _ + 1, [] => none

/-- The character that a one-letter escape stands for. -/
def escape? : Char → Option Char
  | '"' => some '"'
  | '\\' => some '\\'
  | '/' => some '/'
  | 'b' => some '\x08'
  | 'f' => some '\x0c'
  | 'n' => some '\n'
  | 'r' => some '\r'
  | 't' => some '\t'
  | _ => none

/-- The code points of a string after its opening quote, and what follows its closing quote. -/
def codePoints? : Nat → List Char → Option (List Nat × List Char)
  | 0, _ => none
  | fuel + 1, cs =>
    let add (n : Nat) (cs : List Char) := do
      let (ns, cs) ← codePoints? fuel cs
      return (n :: ns, cs)
    match cs with
    | [] => none
    | '"' :: cs => some ([], cs)
    | '\\' :: 'u' :: cs => do
      let (n, cs) ← hex? 4 cs
      match Text.isHighSurrogate n, cs with
      | true, '\\' :: 'u' :: cs' =>
        match hex? 4 cs' with
        | some (m, cs') =>
          if Text.isLowSurrogate m then add (0x10000 + (n - 0xD800) * 0x400 + (m - 0xDC00)) cs'
          else add n cs
        | none => none
      | _, _ => add n cs
    | '\\' :: c :: cs => do
      let c ← escape? c
      add c.toNat cs
    | c :: cs => if c.toNat < 0x20 then none else add c.toNat cs

/-- A string after its opening quote. -/
def string? (cs : List Char) : Option (Value × List Char) :=
  (codePoints? (cs.length + 1) cs).map fun p => (Value.ofPoints p.1, p.2)

/-- The longest run of digits. -/
def digits (cs : List Char) : List Char × List Char := cs.span Text.isDigit

/-- A fraction: a point and digits. -/
def fraction (cs : List Char) : List Char × List Char :=
  match cs with
  | '.' :: rest =>
    match digits rest with
    | ([], _) => ([], cs)
    | (ds, rest) => (ds, rest)
  | _ => ([], cs)

/-- An exponent: its mark, a sign, and digits. -/
def exponent? (cs : List Char) : Option (Int × List Char) :=
  match cs with
  | e :: rest =>
    if e = 'e' || e = 'E' then
      let (negative, rest) := match rest with
        | '-' :: r => (true, r)
        | '+' :: r => (false, r)
        | r => (false, r)
      match digits rest with
      | ([], _) => none
      | (ds, rest) =>
        let n : Int := Text.natOfDigits ds
        some (if negative then -n else n, rest)
    else none
  | [] => none

/-- A numeral without its sign: an integer unless it has a fraction or an exponent. -/
def number? (negative : Bool) (cs : List Char) : Option (Value × List Char) :=
  let (whole, rest) := match cs with
    | '0' :: rest => (['0'], rest)
    | _ => digits cs
  if whole.isEmpty then none
  else
    let (places, rest) := fraction rest
    match places, exponent? rest with
    | [], none =>
      if Fault.maxDigits < whole.length then none
      else
        let n : Int := Text.natOfDigits whole
        some (.whole (if negative then -n else n), rest)
    | _, e =>
      let (power, rest) := e.getD (0, rest)
      let ds := Text.natOfDigits (whole ++ places)
      some (.real (.ofScientific negative ds (power - places.length)), rest)

/-- The words that stand for values. -/
def words : List (List Char × Value) :=
  [("null".toList, .none), ("true".toList, .flag true), ("false".toList, .flag false),
   ("NaN".toList, .real .nan), ("Infinity".toList, .real (.infinite false)),
   ("-Infinity".toList, .real (.infinite true))]

/-- A word or a numeral. -/
def scalar? (cs : List Char) : Option (Value × List Char) :=
  match words.find? fun w => w.1.isPrefixOf cs with
  | some (w, v) => some (v, cs.drop w.length)
  | none => match cs with
    | '-' :: rest => number? true rest
    | _ => number? false cs

mutual

/-- A value at the front of a text, and what follows it. -/
def value? : Nat → List Char → Option (Value × List Char)
  | 0, _ => none
  | fuel + 1, cs =>
    match cs with
    | '"' :: cs => string? cs
    | '[' :: cs =>
      match skipSpace cs with
      | ']' :: cs => some (.list [], cs)
      | cs => (items? fuel cs).map fun p => (.list p.1, p.2)
    | '\x7b' :: cs =>
      match skipSpace cs with
      | '\x7d' :: cs => some (.record [], cs)
      | cs => (members? fuel [] cs).map fun p => (.record p.1, p.2)
    | cs => scalar? cs

/-- The items of a list from one item on. -/
def items? : Nat → List Char → Option (List Value × List Char)
  | 0, _ => none
  | fuel + 1, cs => do
    let (v, cs) ← value? fuel cs
    match skipSpace cs with
    | ']' :: cs => return ([v], cs)
    | ',' :: cs =>
      let (vs, cs) ← items? fuel (skipSpace cs)
      return (v :: vs, cs)
    | _ => none

/-- The members of a record from one key on. -/
def members? : Nat → List (Value × Value) → List Char → Option (List (Value × Value) × List Char)
  | 0, _, _ => none
  | fuel + 1, before, cs =>
    match cs with
    | '"' :: cs => do
      let (key, cs) ← string? cs
      match skipSpace cs with
      | ':' :: cs =>
        let (v, cs) ← value? fuel (skipSpace cs)
        let entries := Value.putEntry before key v
        match skipSpace cs with
        | '\x7d' :: cs => return (entries, cs)
        | ',' :: cs => members? fuel entries (skipSpace cs)
        | _ => none
      | _ => none
    | _ => none

end

/-- The value that a text denotes, with blanks around it. -/
def read? (s : String) : Option Value :=
  let cs := s.toList
  match value? (cs.length + 1) (skipSpace cs) with
  | some (v, rest) => if (skipSpace rest).isEmpty then some v else none
  | none => none

end RedisGateway.Json
