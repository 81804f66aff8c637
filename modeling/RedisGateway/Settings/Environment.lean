import RedisGateway.Fault
import RedisGateway.Options
import RedisGateway.Text.Case

/-!
Environment variables, and how a group of settings looks them up: under which names, and what their
texts mean. What is given for a group may say so itself, under names of their own.
-/

namespace RedisGateway

/-- The variables in order, each name once. -/
structure Environment where
  entries : List (String × String) := []
  deriving Repr, Inhabited

namespace Settings

/-- How a group of settings looks up its variables. -/
structure Lookup where
  /-- What the names of the variables begin with. -/
  start : String
  caseMatters : Bool := false
  /-- A variable with an empty text counts as absent. -/
  skipsEmpty : Bool := false
  /-- What stands between the name of a group and the names in it; empty if there are none. -/
  separator : String := "__"
  /-- The most names behind that of a group. -/
  mostNames : Option Nat := none
  /-- The text that stands for nothing. -/
  nothing : Option String := none
  /-- Codecs are also known by their names in capitals. -/
  capitalCodecs : Bool := false
  deriving DecidableEq, Repr

namespace Lookup

/-- A name as it is compared with others. -/
def fold (l : Lookup) (name : String) : String := if l.caseMatters then name else Text.lower name

/-- The name of the variable of a field. -/
def variableName (l : Lookup) (field : String) : String := l.fold (l.start ++ field)

/-- What the text of a variable means. -/
def meaning (l : Lookup) (text : String) : Value :=
  if l.nothing = some text then .none else .text text

/-- The variables as they are seen. Of two whose names are the same the later one counts, at the
place of the first. -/
def see (l : Lookup) (env : Environment) : Fields :=
  (env.entries.filter fun p => !(l.skipsEmpty && p.2.isEmpty)).foldl
    (fun fs p => fs.put (l.fold p.1) (l.meaning p.2)) []

/-- The names under which a lookup is described. -/
def keywords : List String :=
  ["_case_sensitive", "_nested_model_default_partial_update", "_env_prefix", "_env_prefix_target",
   "_env_file", "_env_file_encoding", "_env_ignore_empty", "_env_nested_delimiter",
   "_env_nested_max_split", "_env_parse_none_str", "_env_parse_enums", "_cli_prog_name",
   "_cli_parse_args", "_cli_settings_source", "_cli_parse_none_str", "_cli_hide_none_type",
   "_cli_avoid_json", "_cli_enforce_required", "_cli_use_class_docs_for_groups",
   "_cli_exit_on_error", "_cli_prefix", "_cli_flag_prefix_char", "_cli_implicit_flags",
   "_cli_ignore_unknown_args", "_cli_kebab_case", "_cli_shortcuts", "_secrets_dir"]

/-- Whether a value names places to read further variables from. -/
def isPlaces : Value → Bool
  | .none | .text _ => true
  | .bytes bs => bs.isEmpty
  | .list vs | .tuple vs | .set vs => vs.all fun v => v.text?.isSome
  | .record es => es.all fun e => e.1.text?.isSome
  | _ => false

/-- The most names that a number allows; zero and numbers below it set no limit. -/
def namesFor : Value → Except Fault (Option Nat)
  | .whole n => .ok (if n ≤ 0 then none else some n.toNat)
  | .flag b => .ok (if b then some 1 else none)
  | v => if v.holds then .error .argumentMismatch else .ok none

/-- The lookup that what is given describes, and the rest of what is given. -/
def describedBy (l : Lookup) (given : Fields) : Except Fault (Lookup × Fields) := do
  let said (name : String) : Option Value := match given.get? name with
    | some .none => none
    | v => v
  let flag (name : String) (usual : Bool) : Bool := ((said name).map Value.holds).getD usual
  let start ← match said "_env_prefix" with
    | none => pure l.start
    | some (.text s) => pure s
    | some _ => throw .argumentMismatch
  let separator := match said "_env_nested_delimiter" with
    | none => l.separator
    | some (.text s) => s
    | some _ => ""
  let mostNames ← match said "_env_nested_max_split" with
    | none => pure l.mostNames
    | some v => namesFor v
  for name in ["_env_file", "_secrets_dir"] do
    if !((said name).map isPlaces).getD true then throw .argumentMismatch
  return ({ start, separator, mostNames
            caseMatters := flag "_case_sensitive" l.caseMatters
            skipsEmpty := flag "_env_ignore_empty" l.skipsEmpty
            nothing := ((said "_env_parse_none_str").bind Value.text?).or l.nothing
            capitalCodecs := flag "_env_parse_enums" l.capitalCodecs },
    given.filter fun p => !keywords.contains p.1)

end Lookup

/-- Where the values of a group come from: what is given, and the variables as they are seen. -/
structure Sources where
  given : Fields
  lookup : Lookup
  seen : Fields

namespace Sources

/-- The raw value of a field: the one that is given, else that of its variable. -/
def value? (s : Sources) (field : String) : Option Value :=
  (s.given.get? field).or (s.seen.get? (s.lookup.variableName field))

end Sources
end Settings
end RedisGateway
