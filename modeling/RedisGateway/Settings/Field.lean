import RedisGateway.Settings.Coercion
import RedisGateway.Settings.Environment

/-!
Typed fields of settings and the reading of a group of them, which reports every field that cannot
be read.
-/

namespace RedisGateway.Settings

/-- A reading that reports all its issues. -/
abbrev Checked (α : Type) := Except (List Issue) α

namespace Checked

/-- Applies a function to what was read. -/
def map {α β : Type} (f : α → β) (x : Checked α) : Checked β := Except.map f x

/-- Applies a function that was read to an argument that was read; the issues of both are kept. -/
def app {α β : Type} (f : Checked (α → β)) (x : Checked α) : Checked β :=
  match f, x with
  | .ok f, .ok a => .ok (f a)
  | .error e, .ok _ => .error e
  | .ok _, .error e => .error e
  | .error e, .error e' => .error (e ++ e')

/-- Adds issues to those of a reading. -/
def andIssues {α : Type} (x : Checked α) (more : List Issue) : Checked α :=
  match x, more with
  | .ok a, [] => .ok a
  | .ok _, more => .error more
  | .error e, more => .error (e ++ more)

/-- The issues of a part, seen from the whole. -/
def under {α : Type} (step : String) (x : Checked α) : Checked α :=
  x.mapError fun is => is.map fun i => { i with path := step :: i.path }

/-- The fault of a reading with issues. -/
def toFault {α : Type} (x : Checked α) : Except Fault α := x.mapError .invalid

end Checked

/-- A field: its name, its value when no source gives one, and how a value is read. -/
structure FieldRule (α : Type) where
  name : String
  fallback : α
  read : Value → Except Problem α

namespace FieldRule

/-- Reads a value, if there is one, for the field that is shown under a label. -/
def readAs {α : Type} (f : FieldRule α) (label : String) : Option Value → Checked α
  | some v => (f.read v).mapError fun p => [⟨[label], p⟩]
  | none => .ok f.fallback

/-- Reads a field from its sources. -/
def resolve {α : Type} (f : FieldRule α) (s : Sources) : Checked α :=
  f.readAs f.name (s.value? f.name)

end FieldRule

/-- The given values under the names of a group's fields. A name may be given in any case, and of
several spellings the first one counts. Names that no field has come last, in the order in which
they were given. -/
def canonicalNames (names : List String) (given : Fields) : Fields :=
  let folded := given.map fun p => (Text.lower p.1, p)
  let known := names.filterMap fun n => (folded.lookup n).map fun p => (n, p.2)
  known ++ (folded.filter fun p => !names.contains p.1).map (·.2)

/-- The sources of a group's fields. -/
def sourcesOf (start : String) (names : List String) (given : Fields) (env : Environment) :
    Except Fault Sources := do
  let (lookup, given) ← Lookup.describedBy { start } given
  return { given := canonicalNames names given, lookup, seen := lookup.see env }

/-- The issues of names that no field has. -/
def unknownNames (names : List String) (s : Sources) : List Issue :=
  (s.given.filter fun p => !names.contains p.1).map fun p => ⟨[p.1], .unknownField⟩

end RedisGateway.Settings
