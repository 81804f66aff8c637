import RedisGateway.Settings.Resolve

/-!
Setting an attribute of settings that exist already. Settings take any value for a field they have;
options take none, once made.
-/

namespace RedisGateway

/-- The kinds of settings. -/
inductive SettingsKind where
  | all
  | connection
  | pool
  | options
  deriving DecidableEq, Repr

namespace SettingsKind

/-- What a kind of settings is called in messages. -/
def name : SettingsKind → String
  | .all => "RedisSettings"
  | .connection => "ConnectionSettings"
  | .pool => "PoolSettings"
  | .options => "ConnectionOptions"

/-- The fields of a kind of settings. -/
def fields : SettingsKind → List String
  | .all => Settings.names
  | .connection => ConnectionSettings.names
  | .pool => Pool.Limits.names
  | .options => (ConnectionOptions.namedFields {}).map (·.1)

/-- What is known of any settings without being a field, and can only be read. -/
def derived : List String := ["model_fields_set", "model_extra"]

/-- Names that begin with an underscore and can only be read. -/
def reserved : List String := ["__fields__", "__fields_set__", "__weakref__"]

/-- Whether a name that begins with an underscore can be set. Such names are free for any use, but
for a few that have a meaning. -/
def assignFree (target : String) (v : Value) : Except Fault Unit :=
  if reserved.contains target then .error (.readOnlyAttribute target)
  else match target, v with
    | "__class__", _ => .error (.unfitAttribute target)
    | "__dict__", .record _ => .ok ()
    | "__dict__", _ => .error (.unfitAttribute target)
    | _, _ => .ok ()

/-- Whether an attribute can be set to a value. -/
def assign (k : SettingsKind) (target : String) (v : Value) : Except Fault Unit :=
  if target.toList.head? = some '_' then assignFree target v
  else if k = .options then .error (.invalid [⟨[target], .frozen⟩])
  else if derived.contains target then .error (.readOnlyAttribute target)
  else if k.fields.contains target then .ok ()
  else .error (.unknownAttribute k.name target)

end SettingsKind
end RedisGateway
