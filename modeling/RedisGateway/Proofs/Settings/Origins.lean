import RedisGateway.Proofs.Settings.Variables

/-!
Where the values of settings come from: what is given, variables with the names of a group and a
field, the JSON of a group, and variables with the name of a field. The sources of a group come down
to the strongest origin of each field (`resolve_present`).
-/

namespace RedisGateway

open Settings (FieldRule Checked Entries)

/-! ## Fields and where their values come from -/

namespace Settings

/-- The groups of settings. -/
inductive Group where
  | connection
  | pool
  deriving DecidableEq

namespace Group

def name : Group → String
  | connection => "connection"
  | pool => "pool"

/-- The names of the fields, in order. -/
def names : Group → List String
  | connection => ConnectionSettings.names
  | pool => Pool.Limits.names

/-- The variable that holds the group as JSON, in small letters. -/
def jsonName (g : Group) : String := "redis_" ++ g.name

/-- What the names of the variables of its fields begin with, in small letters. -/
def ownStart : Group → String
  | connection => "redis_"
  | pool => "redis_pool_"

end Group

/-- A spot for a value in the settings. -/
inductive Spot where
  | field (g : Group) (name : String)
  | codec
  deriving DecidableEq

/-- Where a value can come from, strongest first. -/
inductive Origin where
  | keyword
  /-- The variable with the names of the group and the field. -/
  | nested
  /-- The JSON in the variable with the name of the group. -/
  | json
  /-- The variable with the name of the field. -/
  | own
  deriving DecidableEq

def Origin.all : List Origin := [keyword, nested, json, own]

/-- The value of an optional record under a name. -/
def entry? (v : Option Value) (name : String) : Option Value :=
  match v with
  | some (.record es) => Entries.get? es name
  | _ => none

namespace Spot

/-- The variable with the names of the group and the field. -/
def nested? : Spot → Option String
  | field g name => some (g.jsonName ++ "__" ++ name)
  | codec => none

/-- The variable with the name of the field. -/
def own : Spot → String
  | field g name => g.ownStart ++ name
  | codec => "redis_codec"

/-- What is given. -/
def inKeyword? (given : Fields) : Spot → Option Value
  | field g name => entry? (given.get? g.name) name
  | codec => given.get? codecField.name

/-- What the JSON of the group has. -/
def inJson? (env : Environment) : Spot → Option Value
  | field g name => entry? ((env.get? g.jsonName).bind Json.read?) name
  | codec => none

/-- What an origin has. -/
def from? (p : Spot) (given : Fields) (env : Environment) : Origin → Option Value
  | .keyword => p.inKeyword? given
  | .nested => (p.nested?.bind env.get?).map .text
  | .json => p.inJson? env
  | .own => (env.get? p.own).map .text

/-- The strongest origin that has a value, and the value. -/
def source? (p : Spot) (given : Fields) (env : Environment) : Option (Origin × Value) :=
  Origin.all.findSome? fun o => (p.from? given env o).map (o, ·)

/-- The value of the strongest origin above the variable with the name of the field. -/
def above? (p : Spot) (given : Fields) (env : Environment) : Option Value :=
  (p.inKeyword? given).or (((p.nested?.bind env.get?).map .text).or (p.inJson? env))

/-- The value of the strongest origin. -/
def value? (p : Spot) (given : Fields) (env : Environment) : Option Value :=
  (p.source? given env).map (·.2)

theorem value?_eq (p : Spot) (given : Fields) (env : Environment) :
    p.value? given env = (p.above? given env).or ((env.get? p.own).map .text) := by
  rw [value?, source?, Origin.all, above?]
  simp only [List.findSome?_cons, List.findSome?_nil, from?]
  cases p.inKeyword? given with
  | some v => rfl
  | none => cases (p.nested?.bind env.get?).map Value.text with
    | some v => rfl
    | none => cases p.inJson? env with
      | some v => rfl
      | none => cases (env.get? p.own).map Value.text <;> rfl

/-- An origin is the one that counts if it has a value and no stronger one has. -/
theorem source?_eq_some {p : Spot} {given : Fields} {env : Environment} {o : Origin} {v : Value}
    {stronger weaker : List Origin} (hall : Origin.all = stronger ++ o :: weaker)
    (hnone : ∀ o' ∈ stronger, p.from? given env o' = none) (hv : p.from? given env o = some v) :
    p.source? given env = some (o, v) := by
  have hstronger : stronger.findSome? (fun o => (p.from? given env o).map (o, ·)) = none := by
    refine List.findSome?_eq_none_iff.mpr fun o' ho' => ?_
    rw [hnone o' ho']
    rfl
  rw [source?, hall, List.findSome?_append, hstronger, Option.none_or, List.findSome?_cons, hv]
  rfl

theorem value?_from {p : Spot} {given : Fields} {env : Environment} {v : Value}
    (h : p.value? given env = some v) : ∃ o, p.from? given env o = some v := by
  obtain ⟨⟨o, w⟩, ho, rfl⟩ := Option.map_eq_some_iff.mp h
  obtain ⟨o', -, ho'⟩ := List.exists_of_findSome?_eq_some ho
  obtain ⟨w', hw', heq⟩ := Option.map_eq_some_iff.mp ho'
  obtain ⟨rfl, rfl⟩ := Prod.mk.inj heq
  exact ⟨o', hw'⟩

end Spot

/-- How the value at a spot is read, and which value it has when there is none. -/
structure Field where
  spot : Spot
  read : Value → Except Problem Value
  fallback : Value

/-- A field with its values shown as values of any type. -/
def FieldRule.field {α : Type} (f : FieldRule α) (spot : String → Spot) (shown : α → Value) :
    Field :=
  ⟨spot f.name, fun v => (f.read v).map shown, shown f.fallback⟩

def Group.fields : Group → List Field
  | connection =>
    let text (f : FieldRule String) := f.field (.field connection) .text
    let integer (f : FieldRule Int) := f.field (.field connection) .whole
    let flag (f : FieldRule Bool) := f.field (.field connection) .flag
    [text ConnectionSettings.hostsField, text ConnectionSettings.passwordField,
     text ConnectionSettings.clientNameField, integer ConnectionSettings.timeoutField,
     integer ConnectionSettings.databaseField, flag ConnectionSettings.tlsField,
     flag ConnectionSettings.startTlsField, flag ConnectionSettings.verifyPeerField,
     flag ConnectionSettings.clusterField, flag ConnectionSettings.poolingField]
  | pool =>
    let integer (f : FieldRule Int) := f.field (.field pool) .whole
    let flag (f : FieldRule Bool) := f.field (.field pool) .flag
    -- any integer will do for `min_idle` by itself; its bounds are those of the limits as a whole
    [integer Pool.Limits.maxTotalField, integer Pool.Limits.maxIdleField,
     integer { Pool.Limits.minIdleField with read := toInteger }, integer Pool.Limits.maxWaitField,
     flag Pool.Limits.blockField, flag Pool.Limits.testOnBorrowField,
     flag Pool.Limits.testOnReturnField]

/-- All fields. -/
def fields : List Field :=
  Group.connection.fields ++ Group.pool.fields ++
    [codecField.field (fun _ => .codec) fun c => .text c.name]

/-- A value is read as it is, or is the one for no value. -/
def Field.Takes (f : Field) : Option Value → Value → Prop
  | some v, x => f.read v = .ok x
  | none, x => x = f.fallback

/-- What is given and what is set is given and set for fields, once, and can be read as they are
read. -/
structure Proper (given : Fields) (env : Environment) : Prop where
  keywords : ∀ p ∈ given, p.1 ∈ names
  groups : ∀ (g : Group) v, given.get? g.name = some v →
    ∃ fs, v = .ofFields fs ∧ (fs.map Prod.fst).Nodup ∧ ∀ p ∈ fs, p.1 ∈ g.names
  distinct : env.Distinct "redis_"
  nested : ∀ p ∈ env.entries, ∀ g : Group, (g.jsonName ++ "__").toList <+: (Text.lower p.1).toList →
    ∃ n ∈ g.names, Text.lower p.1 = g.jsonName ++ "__" ++ n
  json : ∀ (g : Group) t, env.get? g.jsonName = some t →
    ∃ fs, Json.read? t = some (.ofFields fs) ∧ ∀ p ∈ fs, p.1 ∈ g.names
  valid : ∀ f ∈ fields, ∀ o v, f.spot.from? given env o = some v → ∃ x, f.read v = .ok x

/-! ## Layers of a group -/

section

variable {given : Fields} {env : Environment}

theorem entry?_carries {v : Option Value} {fs : Fields} (h : Carries v fs) (n : String) :
    entry? v n = fs.get? n := by
  rcases h with rfl | ⟨rfl, rfl⟩
  · exact Entries.get?_entries fs n
  · rfl

theorem given?_carries {field : String} {v : Option Value} {strong weak : Fields}
    (hgiven : Carries (given.get? field) strong) (hsingle : ∀ p ∈ strong, Single p.2)
    (hnodup : (strong.map Prod.fst).Nodup) (h : Carries v weak) :
    Carries (given? given field v) (strong.atop weak) := by
  rw [given?.eq_def]
  rcases hgiven with hg | ⟨hg, rfl⟩
  · rcases h with rfl | ⟨rfl, rfl⟩
    · simp only [hg, overlay_fields hsingle weak]
      exact .inl rfl
    · simp only [hg, Fields.atop_nil hnodup]
      exact .inl rfl
  · simp only [hg]
    exact h

/-- No field is read from a record. -/
theorem Field.single_of_read {f : Field} (hf : f ∈ fields) {v x : Value} (h : f.read v = .ok x) :
    Single v := by
  rintro es rfl
  have hall : fields.all (fun f => !(f.read (.record es)).isOk) = true := rfl
  have hnot := List.all_eq_true.mp hall f hf
  rw [h] at hnot
  cases hnot

/-- What is given for a group. -/
theorem Proper.given_fields (h : Proper given env) (g : Group) :
    ∃ fs, Carries (given.get? g.name) fs ∧ (fs.map Prod.fst).Nodup ∧ ∀ p ∈ fs, p.1 ∈ g.names := by
  cases hg : given.get? g.name with
  | none => exact ⟨[], .inr ⟨rfl, rfl⟩, List.nodup_nil, List.forall_mem_nil _⟩
  | some v =>
    obtain ⟨fs, rfl, hfs⟩ := h.groups g v hg
    exact ⟨fs, .inl rfl, hfs⟩

/-- What the JSON of a group has. -/
theorem Proper.json_fields (h : Proper given env) (g : Group) :
    ∃ fs, Carries ((env.get? g.jsonName).bind Json.read?) fs ∧
      (∀ t, env.get? g.jsonName = some t → Json.read? t = some (.ofFields fs)) ∧
      (env.get? g.jsonName = none → fs = []) ∧ ∀ p ∈ fs, p.1 ∈ g.names := by
  cases hg : env.get? g.jsonName with
  | none =>
    refine ⟨[], .inr ⟨rfl, rfl⟩, fun t ht => ?_, fun _ => rfl, fun p hp => ?_⟩
    · cases ht
    · cases hp
  | some t =>
    obtain ⟨fs, hread, hfs⟩ := h.json g t hg
    refine ⟨fs, .inl hread, fun u hu => ?_, fun hu => ?_, hfs⟩
    · rw [← Option.some.inj hu, hread]
    · cases hu

/-- Names of fields are small letters with single underscores. -/
theorem Group.simple (g : Group) : Simple g.names := by
  cases g with
  | connection => exact ⟨by decide, by decide +kernel⟩
  | pool => exact ⟨by decide, by decide +kernel⟩

theorem mem_spots {g : Group} {n : String} :
    Spot.field g n ∈ fields.map (·.spot) ↔ n ∈ g.names := by
  have hspots : fields.map (·.spot) = ConnectionSettings.names.map (.field .connection) ++
      Pool.Limits.names.map (.field .pool) ++ [.codec] := rfl
  rw [hspots]
  cases g <;> simp [Group.names]

theorem Group.free (g : Group) : ∀ n ∈ g.names, n ∉ Lookup.keywords := by
  cases g <;> decide

/-- What the names of a group's own variables begin with, as the group has it. -/
def Group.start : Group → String
  | connection => ConnectionSettings.variableStart
  | pool => Pool.Limits.variableStart

theorem Group.lower_jsonName (g : Group) : Text.lower (variableStart ++ g.name) = g.jsonName := by
  cases g <;> decide +kernel

theorem Group.lower_own (g : Group) {n : String} (hn : n ∈ g.names) :
    Text.lower (g.start ++ n) = (Spot.field g n).own := by
  have hsigma : 'Σ' ∉ g.start.toList := by cases g <;> decide
  have hstart : Text.lower g.start = g.ownStart := by cases g <;> decide +kernel
  rw [Spot.own, lower_append hsigma (g.simple.letters n hn), hstart]

theorem lower_codec : Text.lower (variableStart ++ codecField.name) = Spot.codec.own := by
  decide +kernel

theorem nestedStart_eq (g : Group) (n : String) :
    String.ofList (nestedStart variableStart g.name ++ n.toList) = g.jsonName ++ "__" ++ n := by
  rw [← String.toList_inj, String.toList_ofList, String.toList_append, String.toList_append,
    nestedStart, g.lower_jsonName]

/-- A group has its values in layers: what is given over variables of single fields over JSON. -/
theorem Proper.layers (h : Proper given env) (g : Group) {s : Sources}
    (hgiven : s.given.get? g.name = given.get? g.name)
    (hlookup : s.lookup = { start := variableStart })
    (hseen : s.seen = Lookup.see { start := variableStart } env) :
    ∃ v fs, groupVariable s g.name g.names = .ok v ∧ Carries (given? s.given g.name v) fs ∧
      Plain g.names fs ∧ ∀ n ∈ g.names, fs.get? n = (Spot.field g n).above? given env := by
  obtain ⟨strong, hstrong, hnodup, hknown⟩ := h.given_fields g
  obtain ⟨json, hcarries, hjson, hnone, hjsonKnown⟩ := h.json_fields g
  have hnested : NestedIn variableStart g.name g.names env := by
    intro p hp rest hrest
    have hlower := behind?_eq_some_iff.mp hrest
    have hstart : (g.jsonName ++ "__").toList = nestedStart variableStart g.name := by
      rw [String.toList_append, nestedStart, g.lower_jsonName]
    obtain ⟨n, hn, hname⟩ := h.nested p hp g (by rw [hlower, hstart]; exact List.prefix_append ..)
    rw [hname, ← nestedStart_eq, String.toList_ofList, List.append_cancel_left_eq] at hlower
    rwa [← hlower, String.ofList_toList]
  have hstart : "redis_".toList <+: (Text.lower (variableStart ++ g.name)).toList := by
    rw [g.lower_jsonName, Group.jsonName, String.toList_append]
    exact List.prefix_append ..
  rw [← g.lower_jsonName] at hjson hnone
  -- what is given can be read, and no field is read from a record, so none is merged into another
  have hsingle : ∀ p ∈ strong, Single p.2 := by
    intro p hp
    obtain ⟨f, hf, hspot⟩ := List.mem_map.mp (mem_spots.mpr (hknown p hp))
    have hfrom : f.spot.from? given env .keyword = some p.2 := by
      rw [hspot, Spot.from?, Spot.inKeyword?, entry?_carries hstrong,
        Fields.get?_of_mem hnodup hp]
    obtain ⟨x, hx⟩ := h.valid f hf .keyword p.2 hfrom
    exact Field.single_of_read hf hx
  obtain ⟨v, hv, hweak⟩ :=
    groupVariable_carries g.simple hnested h.distinct hstart hjson hnone hjsonKnown s.given
  obtain ⟨sgiven, slookup, sseen⟩ := s
  cases hlookup
  cases hseen
  refine ⟨v, _, hv, given?_carries (hgiven ▸ hstrong) hsingle hnodup hweak, ?_, ?_⟩
  · refine ⟨fun p hp => ?_, g.simple.letters, g.free⟩
    rcases Fields.mem_atop hp with hp | hp
    · exact hknown p hp
    · rcases Fields.mem_atop hp with hp | hp
      · exact hnested.known hp
      · exact hjsonKnown p hp
  · intro n hn
    have hnested : (Spot.field g n).nested? = some (g.jsonName ++ "__" ++ n) := rfl
    rw [Fields.get?_atop hnodup, Fields.get?_atop (nodup_nestedFields ..),
      get?_nestedFields h.distinct (hstart.trans (List.prefix_append ..)), nestedStart_eq]
    rw [Spot.above?, Spot.inKeyword?, entry?_carries hstrong, Spot.inJson?,
      entry?_carries hcarries, hnested]
    rfl

/-! ## Groups as a whole -/

/-- A group is what its fields are read as, whether there are any or none. -/
theorem groupOf_carries_ok {α : Type} {check : Fields → Except Fault (Checked α)} {v : Option Value}
    {fs : Fields} (h : Carries v fs) {a : α} (hcheck : check fs = .ok (.ok a))
    (field kind : String) : groupOf field kind check v = .ok (.ok a) := by
  rcases h with rfl | ⟨rfl, rfl⟩
  · rw [groupOf, checkGroup_fields, hcheck]
    rfl
  · rw [groupOf, hcheck]
    rfl

theorem groupOf_carries_error {α : Type} {check : Fields → Except Fault (Checked α)}
    {v : Option Value} {fs : Fields} (h : Carries v fs) {issues : List Issue}
    (hcheck : check fs = .ok (.error issues)) (field kind : String) (a : α) :
    groupOf field kind check v ≠ .ok (.ok a) := by
  rcases h with rfl | ⟨rfl, rfl⟩
  · rw [groupOf, checkGroup_fields, hcheck]
    exact fun heq => by cases heq
  · rw [groupOf, hcheck]
    exact fun heq => by cases heq

/-- The fields of a group that have a value. -/
def present (given : Fields) (env : Environment) (g : Group) : Fields :=
  g.names.filterMap fun n => ((Spot.field g n).value? given env).map (n, ·)

theorem get?_present {g : Group} {n : String} (hn : n ∈ g.names) :
    (present given env g).get? n = (Spot.field g n).value? given env := by
  rw [present, Fields.get?, @lookup_picked (fun n => (Spot.field g n).value? given env), if_pos hn]

/-- Read beside its own variables, a group has the values of the strongest origins. -/
theorem Proper.resolve_present (h : Proper given env) {g : Group} {fs : Fields} {s : Sources}
    (hlookup : s.lookup = { start := g.start })
    (hseen : s.seen = Lookup.see { start := g.start } env)
    (hgiven : ∀ n ∈ g.names, s.given.get? n = fs.get? n)
    (hfs : ∀ n ∈ g.names, fs.get? n = (Spot.field g n).above? given env)
    {α : Type} {f : FieldRule α} (hf : f.name ∈ g.names) :
    f.resolve s = f.readAs f.name ((present given env g).get? f.name) := by
  have hown : "redis_".toList <+: (Text.lower (g.start ++ f.name)).toList := by
    have hstart : "redis_".toList <+: g.ownStart.toList := by cases g <;> decide
    rw [g.lower_own hf, Spot.own, String.toList_append]
    exact hstart.trans (List.prefix_append ..)
  have hvalue : s.value? f.name = (Spot.field g f.name).value? given env := by
    rw [Spot.value?_eq, ← hfs _ hf, ← hgiven _ hf, ← g.lower_own hf,
      ← get?_seen g.start h.distinct hown, Sources.value?, hseen, hlookup]
    rfl
  rw [FieldRule.resolve, hvalue, get?_present hf]

end

end Settings
end RedisGateway
