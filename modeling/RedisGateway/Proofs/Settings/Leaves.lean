import RedisGateway.Proofs.Settings.Origins

/-!
Settings field by field. Each field has the value of the strongest origin that has one for it, read
as the field is read, and no field has anything to do with where another one comes from
(`resolves_leaf_by_leaf`).
-/

namespace RedisGateway

open Settings (FieldRule Checked Entries)

namespace Settings

/-- The value at a spot. -/
def shown (s : Settings) : Spot → Option Value
  | .field .connection name => s.connection.toFields.get? name
  | .field .pool name => s.pool.toFields.get? name
  | .codec => some (.text s.codec.name)

/-- Each field has the value of its strongest origin. -/
def Resolved (given : Fields) (env : Environment) (s : Settings) : Prop :=
  ∀ f ∈ fields, ∃ x, s.shown f.spot = some x ∧
    f.Takes (f.spot.value? given env) x

end Settings

/-- The bounds that the limits of a pool keep to. -/
def Pool.Limits.InBounds (l : Limits) : Prop :=
  0 ≤ l.minIdle ∧ (0 ≤ l.maxIdle → l.minIdle ≤ l.maxIdle) ∧
    (0 ≤ l.maxTotal → l.minIdle ≤ l.maxTotal)

namespace Settings

/-! ## Reading the groups -/

theorem FieldRule.takes_field {α : Type} {f : FieldRule α} {spot : String → Spot}
    {shown : α → Value} {v : Option Value} {x : Value} (h : (f.field spot shown).Takes v x) :
    ∃ a, f.readAs f.name v = .ok a ∧ x = shown a := by
  cases v with
  | none => exact ⟨f.fallback, rfl, h⟩
  | some v =>
    cases hread : f.read v with
    | error p =>
      simp only [Field.Takes, field, hread] at h
      cases h
    | ok a =>
      simp only [Field.Takes, field, hread] at h
      exact ⟨a, by rw [readAs, hread]; rfl, (Except.ok.inj h).symm⟩

end Settings

open Settings (Group Spot Proper Plain)

section

variable {given fs : Fields} {env : Environment}

theorem ConnectionSettings.check_present (h : Proper given env) (hplain : Plain names fs)
    (hfs : ∀ n ∈ names, fs.get? n = (Spot.field .connection n).above? given env) :
    check fs env = .ok (readGiven (Settings.present given env .connection)) := by
  obtain ⟨s, hsources, hunknown, hlookup, hseen, hgiven⟩ :=
    Settings.sourcesOf_plain variableStart hplain env
  have hread := fun {α : Type} (f : FieldRule α) (hf : f.name ∈ names) =>
    @Proper.resolve_present _ _ h .connection _ _ hlookup hseen hgiven hfs _ f hf
  rw [check, hsources]
  simp only [bind, Except.bind, hunknown, Settings.andIssues_none]
  rw [hread hostsField (by decide), hread passwordField (by decide),
    hread clientNameField (by decide), hread timeoutField (by decide),
    hread databaseField (by decide), hread tlsField (by decide), hread startTlsField (by decide),
    hread verifyPeerField (by decide), hread clusterField (by decide),
    hread poolingField (by decide)]
  rfl

theorem Pool.Limits.check_present (h : Proper given env) (hplain : Plain names fs)
    (hfs : ∀ n ∈ names, fs.get? n = (Spot.field .pool n).above? given env) :
    check fs env = .ok ((readGiven (Settings.present given env .pool)).bind consistent) := by
  obtain ⟨s, hsources, hunknown, hlookup, hseen, hgiven⟩ :=
    Settings.sourcesOf_plain variableStart hplain env
  have hread := fun {α : Type} (f : FieldRule α) (hf : f.name ∈ names) =>
    @Proper.resolve_present _ _ h .pool _ _ hlookup hseen hgiven hfs _ f hf
  rw [check, hsources]
  simp only [bind, Except.bind, hunknown, Settings.andIssues_none]
  rw [hread maxTotalField (by decide), hread maxIdleField (by decide),
    hread minIdleField (by decide), hread maxWaitField (by decide), hread blockField (by decide),
    hread testOnBorrowField (by decide), hread testOnReturnField (by decide)]
  rfl

end

namespace Settings

section

variable {given : Fields} {env : Environment}

/-- Every field can be read from the value of its strongest origin. -/
theorem Proper.takes (h : Proper given env) {f : Field} (hf : f ∈ fields) :
    ∃ x, f.Takes (f.spot.value? given env) x := by
  cases hv : f.spot.value? given env with
  | none => exact ⟨f.fallback, rfl⟩
  | some v =>
    obtain ⟨o, ho⟩ := Spot.value?_from hv
    exact h.valid f hf o v ho

/-- A field of a group is read from the value of its strongest origin. -/
theorem readAs_present {g : Group} {α : Type} {f : FieldRule α} {shown : α → Value}
    (hname : f.name ∈ g.names)
    (h : ∃ x, (f.field (.field g) shown).Takes ((Spot.field g f.name).value? given env) x) :
    ∃ a, f.readAs f.name ((present given env g).get? f.name) = .ok a ∧
      (f.field (.field g) shown).Takes ((Spot.field g f.name).value? given env) (shown a) := by
  obtain ⟨x, hx⟩ := h
  obtain ⟨a, ha, rfl⟩ := FieldRule.takes_field hx
  exact ⟨a, by rw [get?_present hname, ha], hx⟩

/-- The settings of the connection that are read from the strongest origins. -/
theorem Proper.read_connection (h : Proper given env) : ∃ c,
    ConnectionSettings.readGiven (present given env .connection) = .ok c ∧
      ∀ (l : Pool.Limits) (t : CodecType), ∀ f ∈ Group.connection.fields,
        ∃ x, Settings.shown ⟨c, l, t⟩ f.spot = some x ∧ f.Takes (f.spot.value? given env) x := by
  have htakes : ∀ f ∈ Group.connection.fields, ∃ x, f.Takes (f.spot.value? given env) x :=
    fun f hf => h.takes (List.mem_append_left _ (List.mem_append_left _ hf))
  simp only [Group.fields, List.forall_mem_cons] at htakes
  obtain ⟨hosts, password, name, timeout, database, tls, startTls, verifyPeer, cluster, pooling,
    -⟩ := htakes
  obtain ⟨hosts, hhosts, thosts⟩ := readAs_present (by decide) hosts
  obtain ⟨password, hpassword, tpassword⟩ := readAs_present (by decide) password
  obtain ⟨name, hname, tname⟩ := readAs_present (by decide) name
  obtain ⟨timeout, htimeout, ttimeout⟩ := readAs_present (by decide) timeout
  obtain ⟨database, hdatabase, tdatabase⟩ := readAs_present (by decide) database
  obtain ⟨tls, htls, ttls⟩ := readAs_present (by decide) tls
  obtain ⟨startTls, hstartTls, tstartTls⟩ := readAs_present (by decide) startTls
  obtain ⟨verifyPeer, hverifyPeer, tverifyPeer⟩ := readAs_present (by decide) verifyPeer
  obtain ⟨cluster, hcluster, tcluster⟩ := readAs_present (by decide) cluster
  obtain ⟨pooling, hpooling, tpooling⟩ := readAs_present (by decide) pooling
  refine ⟨⟨hosts, password, name, timeout, database, tls, startTls, verifyPeer, cluster, pooling⟩,
    ?_, fun l t => ?_⟩
  · simp only [ConnectionSettings.readGiven, hhosts, hpassword, hname, htimeout, hdatabase, htls,
      hstartTls, hverifyPeer, hcluster, hpooling]
    rfl
  · simp only [Group.fields, List.forall_mem_cons]
    exact ⟨⟨_, rfl, thosts⟩, ⟨_, rfl, tpassword⟩, ⟨_, rfl, tname⟩, ⟨_, rfl, ttimeout⟩,
      ⟨_, rfl, tdatabase⟩, ⟨_, rfl, ttls⟩, ⟨_, rfl, tstartTls⟩, ⟨_, rfl, tverifyPeer⟩,
      ⟨_, rfl, tcluster⟩, ⟨_, rfl, tpooling⟩, List.forall_mem_nil _⟩

end

end Settings

namespace Pool.Limits

theorem inBounds_iff (l : Limits) : l.InBounds ↔ l.Valid := by
  rw [InBounds, Valid, contradiction?.eq_def]
  refine and_congr_right fun _ => ?_
  constructor
  · rintro ⟨hidle, htotal⟩
    rw [if_neg (by omega), if_neg (by omega)]
  · intro h
    split at h
    · cases h
    · split at h
      · cases h
      · constructor <;> omega

/-- The least number of idle connections is any integer, unless it is below zero. -/
theorem minIdle_readAs {v : Option Value} {label : String} {n : Int}
    (h : FieldRule.readAs { minIdleField with read := Settings.toInteger } label v = .ok n) :
    (0 ≤ n → minIdleField.readAs label v = .ok n) ∧
      (n < 0 → minIdleField.readAs label v = .error [⟨[label], .belowZero⟩]) := by
  cases v with
  | none =>
    obtain rfl := Except.ok.inj h
    exact ⟨fun _ => rfl, fun hn => by cases hn⟩
  | some v =>
    have hv : Settings.toInteger v = .ok n := by
      cases hread : Settings.toInteger v with
      | error p =>
        simp only [FieldRule.readAs, hread] at h
        cases h
      | ok m =>
        simp only [FieldRule.readAs, hread] at h
        rw [Except.ok.inj h]
    have hcount : minIdleField.read v = if n < 0 then .error .belowZero else .ok n := by
      change Settings.toCount v = _
      rw [Settings.toCount, hv]
      rfl
    refine ⟨fun hn => ?_, fun hn => ?_⟩
    · rw [FieldRule.readAs, hcount, if_neg (Int.not_lt.mpr hn)]
      rfl
    · rw [FieldRule.readAs, hcount, if_pos hn]
      rfl

end Pool.Limits

namespace Settings

section

variable {given : Fields} {env : Environment}

/-- The limits that are read from the strongest origins, if they are in their bounds. -/
theorem Proper.read_pool (h : Proper given env) : ∃ l : Pool.Limits,
    (l.InBounds → (Pool.Limits.readGiven (present given env .pool)).bind Pool.Limits.consistent =
      .ok l) ∧
    (¬ l.InBounds → ∃ issues,
      (Pool.Limits.readGiven (present given env .pool)).bind Pool.Limits.consistent =
        .error issues) ∧
      ∀ (c : ConnectionSettings) (t : CodecType), ∀ f ∈ Group.pool.fields,
        ∃ x, Settings.shown ⟨c, l, t⟩ f.spot = some x ∧ f.Takes (f.spot.value? given env) x := by
  have htakes : ∀ f ∈ Group.pool.fields, ∃ x, f.Takes (f.spot.value? given env) x :=
    fun f hf => h.takes (List.mem_append_left _ (List.mem_append_right _ hf))
  simp only [Group.fields, List.forall_mem_cons] at htakes
  obtain ⟨total, idle, least, wait, block, borrowed, returned, -⟩ := htakes
  obtain ⟨total, htotal, ttotal⟩ := readAs_present (by decide) total
  obtain ⟨idle, hidle, tidle⟩ := readAs_present (by decide) idle
  obtain ⟨least, hleast, tleast⟩ := readAs_present (by decide) least
  obtain ⟨wait, hwait, twait⟩ := readAs_present (by decide) wait
  obtain ⟨block, hblock, tblock⟩ := readAs_present (by decide) block
  obtain ⟨borrowed, hborrowed, tborrowed⟩ := readAs_present (by decide) borrowed
  obtain ⟨returned, hreturned, treturned⟩ := readAs_present (by decide) returned
  obtain ⟨hcount, hbelow⟩ := Pool.Limits.minIdle_readAs hleast
  have hread : 0 ≤ least → Pool.Limits.readGiven (present given env .pool) =
      .ok ⟨total, idle, least, wait, block, borrowed, returned⟩ := by
    intro hn
    have hleast : Pool.Limits.minIdleField.readAs Pool.Limits.minIdleField.name
        ((present given env .pool).get? Pool.Limits.minIdleField.name) = .ok least := hcount hn
    simp only [Pool.Limits.readGiven, htotal, hidle, hleast, hwait, hblock, hborrowed, hreturned]
    rfl
  refine ⟨⟨total, idle, least, wait, block, borrowed, returned⟩, fun hin => ?_, fun hout => ?_,
    fun c t => ?_⟩
  · have hvalid := (Pool.Limits.inBounds_iff _).mp hin
    rw [hread hvalid.1, Except.bind, Pool.Limits.consistent, hvalid.2]
  · by_cases hn : least < 0
    · have hleast : Pool.Limits.minIdleField.readAs Pool.Limits.minIdleField.name
          ((present given env .pool).get? Pool.Limits.minIdleField.name) =
            .error [⟨[Pool.Limits.minIdleField.name], .belowZero⟩] := hbelow hn
      simp only [Pool.Limits.readGiven, htotal, hidle, hleast, hwait, hblock, hborrowed, hreturned]
      exact ⟨_, rfl⟩
    · rw [hread (Int.not_lt.mp hn), Except.bind, Pool.Limits.consistent.eq_def]
      split
      · exact ⟨_, rfl⟩
      · next hnone =>
        exact absurd ((Pool.Limits.inBounds_iff _).mpr ⟨Int.not_lt.mp hn, hnone⟩) hout
  · simp only [Group.fields, List.forall_mem_cons]
    exact ⟨⟨_, rfl, ttotal⟩, ⟨_, rfl, tidle⟩, ⟨_, rfl, tleast⟩, ⟨_, rfl, twait⟩, ⟨_, rfl, tblock⟩,
      ⟨_, rfl, tborrowed⟩, ⟨_, rfl, treturned⟩, List.forall_mem_nil _⟩

/-- The codec that is read from the strongest origin. -/
theorem Proper.read_codec (h : Proper given env) :
    ∃ t, codecField.readAs codecField.name (Spot.codec.value? given env) = .ok t ∧
      (codecField.field (fun _ => .codec) fun c => .text c.name).Takes
        (Spot.codec.value? given env) (.text t.name) := by
  have hmem : codecField.field (fun _ => .codec) (fun c => .text c.name) ∈ fields :=
    List.mem_append_right _ List.mem_cons_self
  obtain ⟨x, hx⟩ := h.takes hmem
  obtain ⟨t, ht, rfl⟩ := FieldRule.takes_field hx
  exact ⟨t, ht, hx⟩

theorem Proper.codecValue (h : Proper given env) {s : Sources}
    (hlookup : s.lookup = { start := variableStart })
    (hseen : s.seen = Lookup.see { start := variableStart } env)
    (hgiven : s.given.get? codecField.name = given.get? codecField.name) :
    codecValue? s = Spot.codec.value? given env := by
  have hown : "redis_".toList <+: (Text.lower (variableStart ++ codecField.name)).toList := by
    rw [lower_codec]
    decide
  have hvalue : s.value? codecField.name = Spot.codec.value? given env := by
    rw [Spot.value?_eq, ← lower_codec, ← get?_seen variableStart h.distinct hown, Spot.above?,
      Spot.inKeyword?, ← hgiven, Sources.value?, hseen, hlookup]
    cases s.given.get? codecField.name <;> rfl
  rw [codecValue?.eq_def, hvalue]
  split
  · next t _ ht =>
    have hknown : (CodecType.all.find? fun c => s.lookup.capitalCodecs && c.name.toUpper = t) =
        none := by
      rw [hlookup]
      exact List.find?_eq_none.mpr fun _ _ => Bool.false_ne_true
    simp only [hknown]
    exact ht.symm
  · rfl

/-- What is given is given for groups and for the codec. -/
theorem Proper.plain (h : Proper given env) : Plain names given :=
  ⟨h.keywords, by decide, by decide⟩

/-- All settings are those of the groups and the codec. -/
theorem check_groups {s : Sources} {v w : Option Value}
    (hsources : sourcesOf variableStart names given env = .ok s)
    (hunknown : unknownNames names s = [])
    (hv : groupVariable s "connection" ConnectionSettings.names = .ok v)
    (hw : groupVariable s "pool" Pool.Limits.names = .ok w) : check given env =
      (groupOf "connection" "ConnectionSettings" (fun fs => ConnectionSettings.check fs env)
        (given? s.given "connection" v)).bind fun c =>
      (groupOf "pool" "PoolSettings" (fun fs => Pool.Limits.check fs env)
        (given? s.given "pool" w)).bind fun l =>
      .ok (((c.map Settings.mk).app l).app
        (codecField.readAs codecField.name (codecValue? s))) := by
  rw [check, hsources]
  simp only [bind, Except.bind]
  rw [hv, hw]
  simp only [hunknown, andIssues_none]
  rfl

/-- Settings have the values of the strongest origins, unless these break the bounds of the pool. -/
theorem Proper.resolves (h : Proper given env) : ∃ s : Settings, Resolved given env s ∧
    (s.pool.InBounds → resolve given env = .ok s) ∧
      (¬ s.pool.InBounds → ∀ t, resolve given env ≠ .ok t) := by
  obtain ⟨s, hsources, hunknown, hlookup, hseen, hgiven⟩ :=
    sourcesOf_plain variableStart h.plain env
  obtain ⟨v, fs, hv, hfs, hplain, habove⟩ :=
    h.layers .connection (hgiven "connection" (by decide)) hlookup hseen
  obtain ⟨w, gs, hw, hgs, hplain', habove'⟩ :=
    h.layers .pool (hgiven "pool" (by decide)) hlookup hseen
  obtain ⟨c, hc, hcshown⟩ := h.read_connection
  obtain ⟨l, hin, hout, hlshown⟩ := h.read_pool
  obtain ⟨t, ht, htakes⟩ := h.read_codec
  have hcodec := h.codecValue hlookup hseen (hgiven codecField.name (by decide))
  have hconnection := ConnectionSettings.check_present h hplain habove
  have hpool := Pool.Limits.check_present h hplain' habove'
  have hcheck := check_groups hsources hunknown hv hw
  have hfs : Carries (given? s.given "connection" v) fs := hfs
  have hgs : Carries (given? s.given "pool" w) gs := hgs
  refine ⟨⟨c, l, t⟩, ?_, fun hb => ?_, fun hb u hu => ?_⟩
  · intro f hf
    rcases List.mem_append.mp hf with hf | hf
    · rcases List.mem_append.mp hf with hf | hf
      · exact hcshown l t f hf
      · exact hlshown c t f hf
    · obtain rfl := List.mem_singleton.mp hf
      exact ⟨_, rfl, htakes⟩
  · rw [hc] at hconnection
    rw [hin hb] at hpool
    rw [resolve, hcheck,
      @groupOf_carries_ok _ (fun fs => ConnectionSettings.check fs env) _ _ hfs c hconnection,
      @groupOf_carries_ok _ (fun fs => Pool.Limits.check fs env) _ _ hgs l hpool, hcodec, ht]
    rfl
  · obtain ⟨issues, hissues⟩ := hout hb
    rw [hissues] at hpool
    obtain ⟨read, hread, hok⟩ := ok_of_bind hu
    obtain rfl := ok_of_toFault hok
    rw [hcheck] at hread
    obtain ⟨c', -, hread⟩ := ok_of_bind hread
    obtain ⟨l', hl', hread⟩ := ok_of_bind hread
    obtain ⟨_, _, hgroups, -, rfl⟩ := app_ok (Except.ok.inj hread)
    obtain ⟨_, limits, -, rfl, rfl⟩ := app_ok hgroups
    exact @groupOf_carries_error _ (fun fs => Pool.Limits.check fs env) _ _ hgs issues hpool _ _
      limits hl'

/-! ## One field at a time -/

/-- The variables that only concern one field. -/
def Spot.ownNames (p : Spot) : List String := p.nested?.toList ++ [p.own]

/-- The variable that holds the group of a field as JSON. -/
def Spot.jsonName? : Spot → Option String
  | .field g _ => some g.jsonName
  | .codec => none

/-- What is given and what is set differs in one field only, in whatever origins. -/
structure DifferAt (p : Spot) (given given' : Fields) (env env' : Environment) : Prop where
  keyword : ∀ q, q ≠ p → q.inKeyword? given' = q.inKeyword? given
  /-- All other variables are as they are, but for the JSON of the field's group. -/
  text : ∀ n, n ∉ p.ownNames → p.jsonName? ≠ some n → env'.get? n = env.get? n
  json : ∀ q, q ≠ p → q.inJson? env' = q.inJson? env

/-- What the names of variables of fields begin with, where some names begin like others. -/
def nameStarts : List (String × (String → Spot)) :=
  [("redis_connection__", .field .connection), ("redis_pool__", .field .pool),
   ("redis_pool_", .field .pool), ("redis_codec", fun _ => .codec), ("redis_", .field .connection)]

/-- The field that a variable would concern by its name. -/
def Spot.ofName? (name : String) : Option Spot :=
  nameStarts.findSome? fun start => (behind? start.1.toList name.toList).map fun rest =>
    start.2 (String.ofList rest)

theorem ofName_ownNames : ∀ p ∈ fields.map (·.spot), ∀ n ∈ p.ownNames, Spot.ofName? n = some p := by
  decide +kernel

theorem ofName_jsonName (g : Group) :
    ∀ p ∈ fields.map (·.spot), Spot.ofName? g.jsonName ≠ some p := by
  cases g <;> decide +kernel

/-- No variable that concerns one field concerns another one. -/
theorem ownNames_apart {p q : Spot} (hp : p ∈ fields.map (·.spot))
    (hq : q ∈ fields.map (·.spot)) (hne : q ≠ p) {n : String} (hn : n ∈ q.ownNames) :
    n ∉ p.ownNames ∧ p.jsonName? ≠ some n := by
  have hname := ofName_ownNames q hq n hn
  constructor
  · intro hn'
    exact hne (Option.some.inj (hname.symm.trans (ofName_ownNames p hp n hn')))
  · intro hn'
    cases p with
    | field g m =>
      obtain rfl := Option.some.inj hn'
      exact ofName_jsonName g q hq hname
    | codec => cases hn'

theorem DifferAt.from? {given' : Fields} {env' : Environment} {p q : Spot}
    (h : DifferAt p given given' env env') (hp : p ∈ fields.map (·.spot))
    (hq : q ∈ fields.map (·.spot)) (hne : q ≠ p) (o : Origin) :
    q.from? given' env' o = q.from? given env o := by
  have hget : ∀ n ∈ q.ownNames, env'.get? n = env.get? n := fun n hn =>
    h.text n (ownNames_apart hp hq hne hn).1 (ownNames_apart hp hq hne hn).2
  cases o with
  | keyword => exact h.keyword q hne
  | nested =>
    rw [Spot.from?, Spot.from?]
    cases hn : q.nested? with
    | none => rfl
    | some n =>
      have hmem : n ∈ q.ownNames := List.mem_append_left _ (by rw [hn]; exact List.mem_cons_self)
      rw [Option.bind_some, Option.bind_some, hget n hmem]
  | json => exact h.json q hne
  | own => rw [Spot.from?, Spot.from?, hget _ (List.mem_append_right _ List.mem_cons_self)]

/-! ## Resolution -/

theorem Field.Takes.unique {f : Field} {v : Option Value} {x y : Value} (hx : f.Takes v x)
    (hy : f.Takes v y) : x = y := by
  cases v with
  | none => exact hx.trans hy.symm
  | some v => exact Except.ok.inj (hx.symm.trans hy)

theorem shown_fields (s : Settings) : fields.map (fun f => s.shown f.spot) =
    ([.text s.connection.hosts, .text s.connection.password, .text s.connection.clientName,
      .whole s.connection.connectionTimeoutMs, .whole s.connection.database,
      .flag s.connection.tls, .flag s.connection.startTls, .flag s.connection.verifyPeer,
      .flag s.connection.cluster, .flag s.connection.pooling, .whole s.pool.maxTotal,
      .whole s.pool.maxIdle, .whole s.pool.minIdle, .whole s.pool.maxWaitMs,
      .flag s.pool.blockWhenExhausted, .flag s.pool.testOnBorrow, .flag s.pool.testOnReturn,
      .text s.codec.name] : List Value).map some := rfl

/-- Settings are told apart by what is shown of them. -/
theorem eq_of_shown {s t : Settings} (h : ∀ f ∈ fields, s.shown f.spot = t.shown f.spot) :
    s = t := by
  have hcodec : ∀ c d : CodecType, c.name = d.name → c = d := by
    intro c d h
    cases c <;> cases d <;> first | rfl | exact absurd h (by decide)
  have hall := List.map_congr_left h
  rw [shown_fields, shown_fields] at hall
  obtain ⟨⟨⟩, ⟨⟩, c⟩ := s
  obtain ⟨⟨⟩, ⟨⟩, d⟩ := t
  simp only [List.map_cons, List.map_nil, List.cons.injEq, Option.some.injEq, Value.text.injEq,
    Value.whole.injEq, Value.flag.injEq] at hall
  simp only [hall, hcodec c d]

/-- Fields have one value each. -/
theorem Resolved.unique {s t : Settings} (hs : Resolved given env s) (ht : Resolved given env t) :
    s = t := by
  refine eq_of_shown fun f hf => ?_
  obtain ⟨x, hx, tx⟩ := hs f hf
  obtain ⟨y, hy, ty⟩ := ht f hf
  rw [hx, hy, tx.unique ty]

/-- What settings come to, field by field. -/
structure LeafByLeaf (given : Fields) (env : Environment) : Prop where
  /-- Every field has one value: that of its strongest origin, read as the field is read, or the
  one for no value. -/
  determined : ∃ s, Resolved given env s ∧ ∀ t, Resolved given env t → t = s
  /-- The settings have these values if they are in the bounds of the pool. -/
  succeeds : ∀ s, resolve given env = .ok s ↔ Resolved given env s ∧ s.pool.InBounds
  fails : ∀ e, resolve given env = .error e → ∃ s, Resolved given env s ∧ ¬ s.pool.InBounds
  /-- Whatever becomes of one field in whatever origins, the other ones come from where they came
  from and have the values that they had. -/
  apart : ∀ given' env', Proper given' env' → ∀ f ∈ fields, DifferAt f.spot given given' env env' →
    ∀ g ∈ fields, g.spot ≠ f.spot →
      g.spot.source? given' env' = g.spot.source? given env ∧
      ∀ s s', resolve given env = .ok s → resolve given' env' = .ok s' →
        s'.shown g.spot = s.shown g.spot

/-- Settings resolve field by field. -/
theorem resolves_leaf_by_leaf (h : Proper given env) : LeafByLeaf given env := by
  have hsucceeds : ∀ {given : Fields} {env : Environment}, Proper given env → ∀ s,
      resolve given env = .ok s ↔ Resolved given env s ∧ s.pool.InBounds := by
    intro given env h s
    obtain ⟨r, hr, hin, hout⟩ := h.resolves
    constructor
    · intro hs
      have hb : r.pool.InBounds := by
        by_contra hb
        exact hout hb s hs
      obtain rfl := Except.ok.inj ((hin hb).symm.trans hs)
      exact ⟨hr, hb⟩
    · rintro ⟨hs, hb⟩
      obtain rfl := hr.unique hs
      exact hin hb
  obtain ⟨r, hr, hin, -⟩ := h.resolves
  refine ⟨⟨r, hr, fun t ht => ht.unique hr⟩, hsucceeds h, fun e he => ?_, ?_⟩
  · refine ⟨r, hr, fun hb => ?_⟩
    cases (hin hb).symm.trans he
  · intro given' env' h' f hf hdiffer g hg hne
    have hfrom : ∀ o, g.spot.from? given' env' o = g.spot.from? given env o :=
      hdiffer.from? (List.mem_map_of_mem hf) (List.mem_map_of_mem hg) hne
    -- the other field has the same origins, hence the same source and the same value
    have hsource : g.spot.source? given' env' = g.spot.source? given env := by
      rw [Spot.source?, Spot.source?]
      simp only [hfrom]
    refine ⟨hsource, fun s s' hs hs' => ?_⟩
    obtain ⟨x, hx, tx⟩ := ((hsucceeds h s).mp hs).1 g hg
    obtain ⟨y, hy, ty⟩ := ((hsucceeds h' s').mp hs').1 g hg
    rw [Spot.value?, hsource] at ty
    rw [hx, hy, ty.unique tx]

end

/-- A field whose strongest origin is known has the value that is read there. -/
theorem Resolved.shown_eq {given : Fields} {env : Environment} {s : Settings}
    (hs : Resolved given env s) {f : Field} (hf : f ∈ fields) {o : Origin} {v x : Value}
    (hsource : f.spot.source? given env = some (o, v)) (hread : f.read v = .ok x) :
    s.shown f.spot = some x := by
  obtain ⟨y, hy, ty⟩ := hs f hf
  rw [Spot.value?, hsource] at ty
  rw [hy, ty.unique hread]

/-- Part of what a pool needs. -/
def layeredGiven : Fields := [("pool", .ofFields [("max_idle", .whole 6)])]

/-- The variables of a pool of three kinds. -/
def layeredEnvironment : Environment where
  entries := [("Redis_Pool__Min_Idle", "2"), ("REDIS_POOL", "\x7b\"max_total\": 4\x7d"),
    ("REDIS_POOL_MAX_TOTAL", "100")]

theorem layered_json : layeredEnvironment.get? "redis_pool" =
    some "\x7b\"max_total\": 4\x7d" := by
  decide +kernel

theorem layered_read : Json.read? "\x7b\"max_total\": 4\x7d" =
    some (.ofFields [("max_total", .whole 4)]) := by
  have hletters : "\x7b\"max_total\": 4\x7d".toList =
      ['\x7b', '"', 'm', 'a', 'x', '_', 't', 'o', 't', 'a', 'l', '"', ':', ' ', '4', '\x7d'] := by
    decide +kernel
  rw [Json.read?, hletters]
  rfl

theorem layered_proper : Proper layeredGiven layeredEnvironment where
  keywords := by decide
  groups := by
    intro g v hv
    cases g with
    | connection => cases hv
    | pool =>
      obtain rfl := Option.some.inj hv
      exact ⟨[("max_idle", .whole 6)], rfl, by decide, by decide⟩
  distinct := by
    rw [Environment.Distinct]
    decide +kernel
  nested := by
    intro p hp g
    revert p
    cases g <;> decide +kernel
  json := by
    intro g t ht
    cases g with
    | connection =>
      have hnone : layeredEnvironment.get? "redis_connection" = none := by decide +kernel
      cases hnone.symm.trans ht
    | pool =>
      obtain rfl := Option.some.inj (layered_json.symm.trans ht)
      exact ⟨[("max_total", .whole 4)], layered_read, by decide⟩
  valid := by
    have hall : fields.all (fun f => Origin.all.all fun o =>
        ((f.spot.from? layeredGiven layeredEnvironment o).map fun v => (f.read v).isOk).getD
          true) = true := by
      decide +kernel
    intro f hf o v hv
    have ho : o ∈ Origin.all := by cases o <;> decide
    have hok := List.all_eq_true.mp (List.all_eq_true.mp hall f hf) o ho
    simp only [hv, Option.map_some, Option.getD_some] at hok
    cases hread : f.read v with
    | ok x => exact ⟨x, rfl⟩
    | error problem =>
      rw [hread] at hok
      cases hok

/-- The most connections in all are those of the JSON and not those of the field's own variable, the
most idle ones are given, and the least number has a variable of its own. -/
theorem resolves_leaf_by_leaf_of_layers : ∃ s, Proper layeredGiven layeredEnvironment ∧
    LeafByLeaf layeredGiven layeredEnvironment ∧
    resolve layeredGiven layeredEnvironment = .ok s ∧
    s.pool.maxTotal = 4 ∧ s.pool.maxIdle = 6 ∧ s.pool.minIdle = 2 := by
  have h := resolves_leaf_by_leaf layered_proper
  obtain ⟨s, hs, -⟩ := h.determined
  have htotal : s.shown (.field .pool "max_total") = some (.whole 4) := by
    have hname : (Spot.field .pool "max_total").nested? = some "redis_pool__max_total" := by decide
    have hnone : layeredEnvironment.get? "redis_pool__max_total" = none := by decide +kernel
    have hsource : (Spot.field .pool "max_total").source? layeredGiven layeredEnvironment =
        some (.json, .whole 4) := by
      refine @Spot.source?_eq_some _ _ _ _ _ [.keyword, .nested] [.own] rfl ?_ ?_
      · rw [List.forall_mem_cons, List.forall_mem_cons]
        refine ⟨rfl, ?_, List.forall_mem_nil _⟩
        rw [Spot.from?, hname, Option.bind_some, hnone]
        rfl
      · rw [Spot.from?, Spot.inJson?, show Group.pool.jsonName = "redis_pool" by decide,
          layered_json, Option.bind_some, layered_read]
        rfl
    have hmem : Pool.Limits.maxTotalField.field (.field .pool) .whole ∈ fields :=
      List.mem_append_left _ (List.mem_append_right _ List.mem_cons_self)
    exact hs.shown_eq hmem hsource rfl
  have hidle : s.shown (.field .pool "max_idle") = some (.whole 6) := by
    have hsource : (Spot.field .pool "max_idle").source? layeredGiven layeredEnvironment =
        some (.keyword, .whole 6) :=
      @Spot.source?_eq_some _ _ _ _ _ [] [.nested, .json, .own] rfl (List.forall_mem_nil _) rfl
    have hmem : Pool.Limits.maxIdleField.field (.field .pool) .whole ∈ fields :=
      List.mem_append_left _
        (List.mem_append_right _ (List.mem_cons_of_mem _ List.mem_cons_self))
    exact hs.shown_eq hmem hsource rfl
  have hleast : s.shown (.field .pool "min_idle") = some (.whole 2) := by
    have hname : (Spot.field .pool "min_idle").nested? = some "redis_pool__min_idle" := by decide
    have hsome : layeredEnvironment.get? "redis_pool__min_idle" = some "2" := by decide +kernel
    have hsource : (Spot.field .pool "min_idle").source? layeredGiven layeredEnvironment =
        some (.nested, .text "2") := by
      refine @Spot.source?_eq_some _ _ _ _ _ [.keyword] [.json, .own] rfl ?_ ?_
      · rw [List.forall_mem_cons]
        exact ⟨rfl, List.forall_mem_nil _⟩
      · rw [Spot.from?, hname, Option.bind_some, hsome]
        rfl
    have hmem : FieldRule.field { Pool.Limits.minIdleField with read := toInteger }
        (.field .pool) .whole ∈ fields :=
      List.mem_append_left _ (List.mem_append_right _
        (List.mem_cons_of_mem _ (List.mem_cons_of_mem _ List.mem_cons_self)))
    have hread : (toInteger (.text "2")).map Value.whole = .ok (.whole 2) := rfl
    exact hs.shown_eq hmem hsource hread
  have htotal : s.pool.maxTotal = 4 := Value.whole.inj (Option.some.inj htotal)
  have hidle : s.pool.maxIdle = 6 := Value.whole.inj (Option.some.inj hidle)
  have hleast : s.pool.minIdle = 2 := Value.whole.inj (Option.some.inj hleast)
  have hin : s.pool.InBounds := by
    rw [Pool.Limits.InBounds, htotal, hidle, hleast]
    decide
  exact ⟨s, layered_proper, h, (h.succeeds s).mpr ⟨hs, hin⟩, htotal, hidle, hleast⟩

end Settings
end RedisGateway
