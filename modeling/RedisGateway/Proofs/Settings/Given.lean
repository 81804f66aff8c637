import RedisGateway.Proofs.Settings.Sources

/-!
Settings of which all are given, in an environment that adds nothing: each field is read from the
value under its name (`check_given`).
-/

namespace RedisGateway

open Settings (FieldRule Checked Sources Plain)

/-! ## Groups -/

/-- A value is given under every name. -/
def Settings.Complete (names : List String) (given : Fields) : Prop :=
  ∀ n ∈ names, (given.get? n).isSome

theorem Settings.read_given {α : Type} {f : FieldRule α} {s : Sources} {names : List String}
    {given : Fields} (hs : ∀ n ∈ names, s.given.get? n = given.get? n)
    (hall : Complete names given) (hf : f.name ∈ names) :
    f.resolve s = f.readAs f.name (given.get? f.name) := by
  obtain ⟨v, hv⟩ := Option.isSome_iff_exists.mp (hall f.name hf)
  rw [Settings.resolve_given ((hs f.name hf).trans hv), hv]

theorem Settings.andIssues_none {α : Type} (x : Checked α) : x.andIssues [] = x := by
  cases x with
  | ok a => rfl
  | error is => exact congrArg Except.error (List.append_nil is)

namespace Settings

theorem app_ok {α β : Type} {f : Checked (α → β)} {x : Checked α} {b : β}
    (h : f.app x = .ok b) : ∃ g a, f = .ok g ∧ x = .ok a ∧ b = g a := by
  cases f <;> cases x <;> simp_all [Checked.app]

theorem map_ok {α β : Type} {f : α → β} {x : Checked α} {b : β} (h : x.map f = .ok b) :
    ∃ a, x = .ok a ∧ b = f a := by
  cases x <;> simp_all [Checked.map, Except.map]

end Settings

namespace ConnectionSettings

/-- The settings whose fields are read from what is given. -/
def readGiven (given : Fields) : Checked ConnectionSettings :=
  let field {α : Type} (f : FieldRule α) : Checked α := f.readAs f.name (given.get? f.name)
  ((field hostsField).map ConnectionSettings.mk).app (field passwordField)
    |>.app (field clientNameField) |>.app (field timeoutField) |>.app (field databaseField)
    |>.app (field tlsField) |>.app (field startTlsField) |>.app (field verifyPeerField)
    |>.app (field clusterField) |>.app (field poolingField)

theorem check_given {given : Fields} (h : Plain names given)
    (hall : Settings.Complete names given) (env : Environment) :
    check given env = .ok (readGiven given) := by
  obtain ⟨s, hsources, hunknown, -, -, hs⟩ := Settings.sourcesOf_plain variableStart h env
  have hread := fun {α : Type} (f : FieldRule α) (hf : f.name ∈ names) =>
    Settings.read_given (f := f) hs hall hf
  rw [check, hsources]
  simp only [bind, Except.bind, hunknown, Settings.andIssues_none]
  rw [hread hostsField (by decide), hread passwordField (by decide),
    hread clientNameField (by decide), hread timeoutField (by decide),
    hread databaseField (by decide), hread tlsField (by decide), hread startTlsField (by decide),
    hread verifyPeerField (by decide), hread clusterField (by decide),
    hread poolingField (by decide)]
  rfl

end ConnectionSettings

namespace Pool.Limits

/-- The limits whose fields are read from what is given. -/
def readGiven (given : Fields) : Checked Limits :=
  let field {α : Type} (f : FieldRule α) : Checked α := f.readAs f.name (given.get? f.name)
  ((field maxTotalField).map Limits.mk).app (field maxIdleField)
    |>.app (field minIdleField) |>.app (field maxWaitField) |>.app (field blockField)
    |>.app (field testOnBorrowField) |>.app (field testOnReturnField)

theorem check_given {given : Fields} (h : Plain names given)
    (hall : Settings.Complete names given) (env : Environment) :
    check given env = .ok ((readGiven given).bind consistent) := by
  obtain ⟨s, hsources, hunknown, -, -, hs⟩ := Settings.sourcesOf_plain variableStart h env
  have hread := fun {α : Type} (f : FieldRule α) (hf : f.name ∈ names) =>
    Settings.read_given (f := f) hs hall hf
  rw [check, hsources]
  simp only [bind, Except.bind, hunknown, Settings.andIssues_none]
  rw [hread maxTotalField (by decide), hread maxIdleField (by decide),
    hread minIdleField (by decide), hread maxWaitField (by decide), hread blockField (by decide),
    hread testOnBorrowField (by decide), hread testOnReturnField (by decide)]
  rfl

end Pool.Limits

/-! ## Records -/

/-- Fields as the entries of a record. -/
def Fields.entries (fs : Fields) : List (Value × Value) := fs.map fun p => (.text p.1, p.2)

@[simp] theorem Fields.entries_cons (p : String × Value) (fs : Fields) :
    Fields.entries (p :: fs) = (.text p.1, p.2) :: fs.entries := rfl

theorem Value.same_text (a b : String) : Value.same (.text a) (.text b) = decide (a = b) := by
  simp [Value.same, Value.integer?, Value.sameAtom]

theorem Value.putEntry_fields {done : Fields} {p : String × Value}
    (h : ∀ q ∈ done, q.1 ≠ p.1) :
    putEntry done.entries (.text p.1) p.2 = Fields.entries (done ++ [p]) := by
  have hnew : done.entries.any (same ·.1 (.text p.1)) = false := by
    rw [Fields.entries, List.any_map, List.any_eq_false]
    intro q hq
    simp [same_text, h q hq]
  rw [putEntry, hnew, if_neg Bool.false_ne_true, Fields.entries, Fields.entries,
    List.map_append, List.map_singleton]

theorem Value.foldl_fields (fs done : Fields) (h : ((done ++ fs).map Prod.fst).Nodup) :
    fs.entries.foldl (fun out e => putEntry out e.1 e.2) done.entries =
      Fields.entries (done ++ fs) := by
  induction fs generalizing done with
  | nil => simp [Fields.entries]
  | cons p fs ih =>
    have hnew : ∀ q ∈ done, q.1 ≠ p.1 := fun q hq => by
      rw [List.map_append, List.nodup_append] at h
      exact h.2.2 q.1 (List.mem_map_of_mem hq) p.1 (by simp)
    have hrest := ih (done ++ [p]) (by simpa using h)
    rw [List.append_assoc, List.singleton_append] at hrest
    rw [← hrest, ← putEntry_fields hnew]
    rfl

/-- A record of fields with distinct names has them all, in order. -/
theorem Value.recordOf_fields {fs : Fields} (h : (fs.map Prod.fst).Nodup) :
    Value.recordOf fs.entries = .ofFields fs :=
  congrArg Value.record (foldl_fields fs [] h)

namespace Settings

theorem text_of_entries (fs : Fields) :
    fs.entries.filterMap (fun e => e.1.text?.map fun k => (k, e.2)) = fs := by
  induction fs with
  | nil => rfl
  | cons p fs ih =>
    rw [Fields.entries_cons, List.filterMap_cons, ih]
    rfl

theorem givenIn_fields (fs : Fields) : givenIn? fs.entries = some (fs, false) := by
  rw [givenIn?, text_of_entries]
  simp [Fields.entries]

theorem checkRecord_fields {α : Type} (check : Fields → Except Fault (Checked α)) (fs : Fields) :
    checkRecord check fs.entries = check fs := by
  rw [checkRecord, givenIn_fields]
  cases hcheck : check fs <;> simp [hcheck, Except.map]

theorem checkGroup_fields {α : Type} (field kind : String)
    (check : Fields → Except Fault (Checked α)) (fs : Fields) :
    checkGroup field kind check (.ofFields fs) = (check fs).map (·.under field) := by
  change (checkRecord check fs.entries).map (·.under field) = _
  rw [checkRecord_fields]

/-- All settings given as a record of records. -/
structure AllGiven where
  connection : Fields
  pool : Fields
  codec : Value

namespace AllGiven

def fields (g : AllGiven) : Fields :=
  [("codec", g.codec), ("connection", .ofFields g.connection), ("pool", .ofFields g.pool)]

/-- The entries of all that is given, the groups as records of theirs. -/
def entries (g : AllGiven) : List (Value × Value) :=
  [(.text "codec", g.codec), (.text "connection", .recordOf g.connection.entries),
   (.text "pool", .recordOf g.pool.entries)]

/-- The settings whose fields are read from what is given. -/
def read (g : AllGiven) : Checked Settings :=
  ((((ConnectionSettings.readGiven g.connection).under "connection").map Settings.mk).app
    (Checked.under "pool" ((Pool.Limits.readGiven g.pool).bind Pool.Limits.consistent))).app
      (codecField.readAs codecField.name (some g.codec))

/-- Every field has its value, and no other. -/
structure Full (g : AllGiven) : Prop where
  connection : Plain ConnectionSettings.names g.connection
  connectionAll : Complete ConnectionSettings.names g.connection
  pool : Plain Pool.Limits.names g.pool
  poolAll : Complete Pool.Limits.names g.pool

end AllGiven

theorem plain_names (g : AllGiven) : Plain names g.fields where
  known := by simp [AllGiven.fields, names]
  letters := by decide
  free := by decide

/-- Where all settings are given and no variable is set, each field is read from its value. -/
theorem check_given {g : AllGiven} (h : g.Full) {env : Environment} (henv : env.Without "redis_") :
    check g.fields env = .ok g.read := by
  obtain ⟨s, hsources, hunknown, hlookup, hseen, hs⟩ :=
    sourcesOf_plain variableStart (plain_names g) env
  have hcase : s.lookup.caseMatters = false := by rw [hlookup]
  have hseen : s.seen = s.lookup.see env := by rw [hlookup, hseen]
  have hnone : ∀ group ns, "redis_".toList <+: (s.lookup.variableName group).toList →
      groupVariable s group ns = .ok none := fun group ns hgroup =>
    groupVariable_without henv hcase hseen hgroup
  have hgiven : s.given.get? "connection" = some (.ofFields g.connection) ∧
      s.given.get? "pool" = some (.ofFields g.pool) ∧ s.given.get? codecField.name = some g.codec :=
    ⟨hs "connection" (by decide), hs "pool" (by decide), hs codecField.name (by decide)⟩
  have hconnection : given? s.given "connection" none = some (.ofFields g.connection) := by
    simp [given?, hgiven]
  have hpool : given? s.given "pool" none = some (.ofFields g.pool) := by
    simp [given?, hgiven]
  have hcodec : codecValue? s = some g.codec := by
    simp [codecValue?, Sources.value?, hgiven]
  rw [check, hsources]
  simp only [bind, Except.bind]
  rw [hnone "connection" _ (by rw [hlookup]; decide), hnone "pool" _ (by rw [hlookup]; decide)]
  simp only [hconnection, hpool, groupOf, checkGroup_fields, hcodec, hunknown, andIssues_none,
    ConnectionSettings.check_given h.connection h.connectionAll,
    Pool.Limits.check_given h.pool h.poolAll, Except.map]
  rfl

end Settings

/-! ## Validity -/

namespace Settings

theorem ok_of_andIssues {α : Type} {x : Checked α} {more : List Issue} {a : α}
    (h : x.andIssues more = .ok a) : x = .ok a := by
  cases x <;> cases more <;> simp_all [Checked.andIssues]

theorem ok_of_under {α : Type} {x : Checked α} {step : String} {a : α}
    (h : x.under step = .ok a) : x = .ok a := by
  cases x with
  | error is => cases h
  | ok b => exact h

theorem count_of_readAs {f : FieldRule Int} (hread : f.read = toCount) (hfallback : 0 ≤ f.fallback)
    {label : String} {v : Option Value} {n : Int} (h : f.readAs label v = .ok n) : 0 ≤ n := by
  cases v with
  | none =>
    obtain rfl := Except.ok.inj h
    exact hfallback
  | some v =>
    rw [FieldRule.readAs, hread, toCount] at h
    cases hn : toInteger v with
    | error p =>
      rw [hn] at h
      cases h
    | ok m =>
      simp only [hn, bind, Except.bind] at h
      split at h
      · cases h
      · obtain rfl := Except.ok.inj h
        omega

end Settings

/-- Limits that were read can be met. -/
theorem Pool.Limits.valid_of_check {given : Fields} {env : Environment} {l : Limits}
    (h : check given env = .ok (.ok l)) : l.Valid := by
  rw [check] at h
  cases hsources : Settings.sourcesOf variableStart names given env with
  | error f => simp [hsources, bind, Except.bind] at h
  | ok s =>
    simp only [hsources, bind, Except.bind, pure, Except.pure, Except.ok.injEq] at h
    split at h
    · cases h
    · next l' hread =>
      rw [consistent] at h
      split at h
      · cases h
      · next hnone =>
        obtain rfl := Except.ok.inj h
        refine ⟨?_, hnone⟩
        obtain ⟨_, _, hreturn, -, rfl⟩ := Settings.app_ok (Settings.ok_of_andIssues hread)
        obtain ⟨_, _, hborrow, -, rfl⟩ := Settings.app_ok hreturn
        obtain ⟨_, _, hblock, -, rfl⟩ := Settings.app_ok hborrow
        obtain ⟨_, _, hwait, -, rfl⟩ := Settings.app_ok hblock
        obtain ⟨_, least, hleast, hmin, rfl⟩ := Settings.app_ok hwait
        obtain ⟨_, _, hidle, -, rfl⟩ := Settings.app_ok hleast
        obtain ⟨most, hmost, rfl⟩ := Settings.map_ok hidle
        exact Settings.count_of_readAs rfl (by decide) hmin

namespace Settings

/-- What is found in a record was found in its fields. -/
theorem ok_of_checkRecord {α : Type} {check : Fields → Except Fault (Checked α)} {es : Entries}
    {a : α} (h : checkRecord check es = .ok (.ok a)) : ∃ given, check given = .ok (.ok a) := by
  rw [checkRecord] at h
  split at h
  · cases h
  · next given broken _ =>
    refine ⟨given, ?_⟩
    cases hfound : check given with
    | error f => simp [hfound, Except.map] at h
    | ok found => cases broken <;> simp_all [Except.map]

/-- A group that is found was found in some fields. -/
theorem ok_of_group {α : Type} {field kind : String} {check : Fields → Except Fault (Checked α)}
    {v : Option Value} {a : α} (h : groupOf field kind check v = .ok (.ok a)) :
    ∃ given, check given = .ok (.ok a) := by
  cases v with
  | none =>
    refine ⟨[], ?_⟩
    cases hfound : check [] with
    | error f => simp [groupOf, hfound, bind, Except.bind] at h
    | ok found =>
      rw [groupOf, hfound] at h
      cases found with
      | error is => cases h
      | ok b => exact h
  | some v =>
    rw [groupOf, checkGroup.eq_def] at h
    split at h
    · next es =>
      cases hfound : checkRecord check es with
      | error f => simp [hfound, Except.map] at h
      | ok found =>
        simp only [hfound, Except.map, Except.ok.injEq] at h
        exact ok_of_checkRecord (by rw [hfound, ok_of_under h])
    · cases h

theorem ok_of_bind {α β : Type} {x : Except Fault α} {f : α → Except Fault β} {b : β}
    (h : x.bind f = .ok b) : ∃ a, x = .ok a ∧ f a = .ok b := by
  cases x with
  | error e => cases h
  | ok a => exact ⟨a, rfl, h⟩

theorem ok_of_toFault {α : Type} {x : Checked α} {a : α} (h : x.toFault = .ok a) : x = .ok a := by
  cases x with
  | error is => cases h
  | ok b =>
    cases h
    rfl

/-- Settings that were read have limits that can be met. -/
theorem valid_of_resolve {given : Fields} {env : Environment} {s : Settings}
    (h : resolve given env = .ok s) : s.pool.Valid := by
  obtain ⟨read, hcheck, hread⟩ := ok_of_bind h
  obtain rfl := ok_of_toFault hread
  obtain ⟨sources, -, h⟩ := ok_of_bind hcheck
  obtain ⟨_, -, h⟩ := ok_of_bind h
  obtain ⟨_, -, h⟩ := ok_of_bind h
  obtain ⟨_, -, h⟩ := ok_of_bind h
  obtain ⟨pool, hpool, h⟩ := ok_of_bind h
  obtain ⟨_, _, hgroups, -, rfl⟩ := app_ok (ok_of_andIssues (Except.ok.inj h))
  obtain ⟨_, limits, hconnection, hlimits, rfl⟩ := app_ok hgroups
  obtain ⟨connection, -, rfl⟩ := map_ok hconnection
  rw [hlimits] at hpool
  obtain ⟨fields, hfields⟩ := ok_of_group hpool
  exact Pool.Limits.valid_of_check hfields

end Settings
end RedisGateway
