import RedisGateway.Proofs.Settings.Layers

/-!
What the environment has for the fields of a group: the variables as they are seen, those whose
names begin with the name of the group, and the JSON under this name. Where the names are those of
fields it comes down to a layer of fields (`groupVariable_carries`).
-/

namespace RedisGateway

/-! ## Variables -/

namespace Environment

/-- The text of the variable with a name in small letters, in whatever case the variable is set. -/
def get? (env : Environment) (name : String) : Option String :=
  (env.entries.find? fun p => Text.lower p.1 = name).map (·.2)

/-- Of the names that begin with a text none is another one in a different case. -/
def Distinct (start : String) (env : Environment) : Prop :=
  ((env.entries.map fun p => Text.lower p.1).filter
    fun n => start.toList.isPrefixOf n.toList).Nodup

/-- The variables as named values, with names in small letters. -/
def folded (env : Environment) : Fields := env.entries.map fun p => (Text.lower p.1, .text p.2)

theorem get?_folded (env : Environment) (n : String) :
    env.folded.get? n = (env.get? n).map .text := by
  obtain ⟨entries⟩ := env
  induction entries with
  | nil => rfl
  | cons p entries ih =>
    rw [folded, List.map_cons, Fields.get?_cons, get?, List.find?_cons]
    by_cases hn : n = Text.lower p.1
    · simp [hn]
    · have hne : decide (Text.lower p.1 = n) = false := decide_eq_false (Ne.symm hn)
      rw [if_neg hn, hne]
      exact ih

theorem Distinct.count {start : String} {env : Environment} (h : env.Distinct start) {n : String}
    (hn : start.toList <+: n.toList) : (env.folded.map Prod.fst).count n ≤ 1 := by
  have hcount := List.nodup_iff_count_le_one.mp h n
  have hstart : start.toList.isPrefixOf n.toList = true := List.isPrefixOf_iff_prefix.mpr hn
  rw [@List.count_filter _ _ _ (fun n : String => start.toList.isPrefixOf n.toList) _ _ hstart]
    at hcount
  rwa [folded, List.map_map]

end Environment

namespace Settings

section Seen

variable {start : String} {env : Environment}

/-- Names are seen without regard to case, and each text means itself. -/
theorem see_eq (start : String) (env : Environment) :
    Lookup.see { start } env = env.folded.atop [] := by
  rw [Lookup.see, Fields.atop, Environment.folded, List.foldl_map]
  simp [Lookup.fold, Lookup.meaning, List.filter_true]

theorem nodup_seen (start : String) (env : Environment) :
    ((Lookup.see { start } env).map Prod.fst).Nodup := by
  rw [see_eq]
  refine Fields.nodup_atop ?_ _
  exact List.nodup_nil

/-- A variable whose name is set in one case only is seen as it is set. -/
theorem get?_seen (start : String) {common : String} (h : env.Distinct common) {n : String}
    (hn : common.toList <+: n.toList) :
    (Lookup.see { start } env).get? n = (env.get? n).map .text := by
  rw [see_eq, Fields.get?_atop_of_count (h.count hn), Environment.get?_folded, Fields.get?_nil,
    Option.or_none]

theorem text_seen {p : String × Value} (h : p ∈ Lookup.see { start } env) :
    ∃ t, p.2 = .text t := by
  rw [see_eq] at h
  rcases Fields.mem_atop h with h | h
  · obtain ⟨q, -, rfl⟩ := List.mem_map.mp h
    exact ⟨q.2, rfl⟩
  · cases h

end Seen

/-! ## Variables of single fields -/

theorem behind?_eq_some_iff {separator cs rest : List Char} :
    behind? separator cs = some rest ↔ cs = separator ++ rest := by
  induction separator generalizing cs with
  | nil => exact ⟨fun h => Option.some.inj h, fun h => congrArg some h⟩
  | cons c separator ih =>
    cases cs with
    | nil => simp [behind?]
    | cons d cs =>
      rw [behind?]
      split
      · next hc => rw [ih, hc, List.cons_append, List.cons.injEq, and_iff_right rfl]
      · next hc => simp [Ne.symm hc]

end Settings

/-- The values whose names begin with some characters, under what is left of the names. -/
def Fields.behind (start : List Char) (fs : Fields) : Fields :=
  fs.filterMap fun p => (Settings.behind? start p.1.toList).map fun rest =>
    (String.ofList rest, p.2)

namespace Fields

variable {start : List Char}

theorem get?_behind (fs : Fields) (n : String) :
    (fs.behind start).get? n = fs.get? (String.ofList (start ++ n.toList)) := by
  induction fs with
  | nil => rfl
  | cons p fs ih =>
    rw [behind, List.filterMap_cons, get?_cons]
    cases hb : Settings.behind? start p.1.toList with
    | none =>
      have hne : String.ofList (start ++ n.toList) ≠ p.1 := by
        intro h
        rw [← h, String.toList_ofList, Settings.behind?_eq_some_iff.mpr rfl] at hb
        cases hb
      rw [if_neg hne]
      exact ih
    | some rest =>
      have hp : p.1 = String.ofList (start ++ rest) := by
        rw [← Settings.behind?_eq_some_iff.mp hb, String.ofList_toList]
      have hsame : n = String.ofList rest ↔ String.ofList (start ++ n.toList) = p.1 := by
        rw [hp, String.ofList_inj, List.append_cancel_left_eq, ← String.ofList_inj,
          String.ofList_toList]
      simp only [Option.map_some, get?_cons, hsame]
      rw [← ih]
      rfl

theorem nodup_behind {fs : Fields} (h : (fs.map Prod.fst).Nodup) :
    ((fs.behind start).map Prod.fst).Nodup := by
  have hnames : (fs.behind start).map Prod.fst = (fs.map Prod.fst).filterMap
      fun n => (Settings.behind? start n.toList).map String.ofList := by
    rw [behind, List.map_filterMap, List.filterMap_map]
    refine List.filterMap_congr fun p _ => ?_
    rw [Option.map_map]
    rfl
  rw [hnames]
  refine h.filterMap fun n m k hn hm => ?_
  obtain ⟨cs, hcs, rfl⟩ := Option.map_eq_some_iff.mp hn
  obtain ⟨ds, hds, hk⟩ := Option.map_eq_some_iff.mp hm
  rw [String.ofList_inj] at hk
  rw [← String.toList_inj, Settings.behind?_eq_some_iff.mp hcs,
    Settings.behind?_eq_some_iff.mp hds, hk]

end Fields

namespace Settings

/-- What the names of a group's variables of single fields begin with. -/
def nestedStart (start group : String) : List Char :=
  (Text.lower (start ++ group)).toList ++ "__".toList

/-- The path that the rest of a variable's name denotes. -/
def pathOf (rest : List Char) : List (List Char) :=
  namesBetween "__".toList (rest.length + 1) (rest.length + 1) rest

/-- A variable among those of a group, put where its path leads. -/
def plantBehind (start : List Char) (es : Entries) (p : String × Value) : Entries :=
  match behind? start p.1.toList with
  | none => es
  | some rest => plant es p.2 ((pathOf rest).map String.ofList)

theorem nestedVariables_eq (start group : String) (given seen : Fields) :
    nestedVariables ⟨given, { start }, seen⟩ group =
      seen.foldl (plantBehind (nestedStart start group)) [] := by
  rw [nestedVariables, if_neg (by simp)]
  refine congrArg (fun step => seen.foldl step []) (funext fun es => funext fun p => ?_)
  have hname : Lookup.variableName { start } group = Text.lower (start ++ group) := rfl
  rw [plantBehind, nestedStart, hname]
  cases behind? ((Text.lower (start ++ group)).toList ++ "__".toList) p.1.toList with
  | none => rfl
  | some rest => rfl

theorem plant_single (es : Entries) {v : Value} (h : v ≠ .none) (n : String) :
    plant es v [n] = Entries.put es n v := by
  cases v with
  | none => exact absurd rfl h
  | _ => simp only [plant]

theorem plantBehind_single {start : List Char} (fs : Fields) {p : String × Value}
    (hpath : ∀ rest, behind? start p.1.toList = some rest → pathOf rest = [rest])
    (hvalue : p.2 ≠ .none) :
    plantBehind start fs.entries p = ((Fields.behind start [p]).atop fs).entries := by
  rw [plantBehind, Fields.behind, List.filterMap_cons]
  cases hb : behind? start p.1.toList with
  | none => rfl
  | some rest =>
    simp only [hpath rest hb, List.map_singleton, plant_single _ hvalue, Entries.put_entries]
    rfl

/-- Variables each of a single field are the values of these fields. -/
theorem nestedVariables_fields {start group : String} {given seen : Fields}
    (hpath : ∀ p ∈ seen, ∀ rest, behind? (nestedStart start group) p.1.toList = some rest →
      pathOf rest = [rest])
    (hvalue : ∀ p ∈ seen, p.2 ≠ .none) (hnodup : (seen.map Prod.fst).Nodup) :
    nestedVariables ⟨given, { start }, seen⟩ group =
      (seen.behind (nestedStart start group)).entries := by
  -- each variable is put over what those before it have left
  have hall : ∀ before : Fields,
      seen.foldl (plantBehind (nestedStart start group)) before.entries =
        ((seen.behind (nestedStart start group)).atop before).entries := by
    clear hnodup
    induction seen with
    | nil => exact fun _ => rfl
    | cons p seen ih =>
      intro before
      have hsplit : Fields.behind (nestedStart start group) (p :: seen) =
          Fields.behind (nestedStart start group) [p] ++
            Fields.behind (nestedStart start group) seen :=
        List.filterMap_append (l := [p])
      rw [List.foldl_cons, plantBehind_single before (hpath p List.mem_cons_self)
        (hvalue p List.mem_cons_self), ih (fun q hq => hpath q (List.mem_cons_of_mem _ hq))
        (fun q hq => hvalue q (List.mem_cons_of_mem _ hq)), hsplit]
      rw [Fields.atop, Fields.atop, Fields.atop, List.foldl_append]
  rw [nestedVariables_eq, ← Fields.atop_nil (Fields.nodup_behind hnodup), ← hall []]
  rfl

end Settings

/-! ## JSON -/

/-- The texts among the keys of a record. -/
def Value.textKeys (es : List (Value × Value)) : List String := es.filterMap (·.1.text?)

theorem Value.textKeys_entries (fs : Fields) : textKeys fs.entries = fs.map Prod.fst := by
  rw [textKeys, Fields.entries, List.filterMap_map]
  exact congrFun (List.filterMap_eq_map (f := Prod.fst)) fs

/-- No key is repeated by a further entry. -/
theorem Value.nodup_putEntry {es : List (Value × Value)} (h : (textKeys es).Nodup) (k v : Value) :
    (textKeys (putEntry es k v)).Nodup := by
  rw [putEntry]
  split
  · have hkeys : textKeys (es.map fun e => if same e.1 k then (e.1, v) else e) = textKeys es := by
      rw [textKeys, List.filterMap_map]
      refine List.filterMap_congr fun e _ => ?_
      simp only [Function.comp_apply]
      split <;> rfl
    rwa [hkeys]
  · next hnew =>
    rw [textKeys, List.filterMap_append]
    cases ht : k.text? with
    | none =>
      have hnone : [(k, v)].filterMap (·.1.text?) = [] := by simp [ht]
      rwa [hnone, List.append_nil]
    | some t =>
      obtain rfl : k = .text t := by
        cases k with
        | text s => rw [Option.some.inj ht]
        | _ => cases ht
      refine List.nodup_append.mpr ⟨h, List.nodup_singleton t, ?_⟩
      rintro s hs r hr rfl
      obtain rfl := List.mem_singleton.mp hr
      obtain ⟨e, he, hes⟩ := List.mem_filterMap.mp hs
      have hsame : same e.1 (.text s) = true := by
        cases hk : e.1 with
        | text r =>
          rw [hk] at hes
          rw [same_text, Option.some.inj hes, decide_eq_true rfl]
        | _ =>
          rw [hk] at hes
          cases hes
      exact hnew (List.any_eq_true.mpr ⟨e, he, hsame⟩)

namespace Json

theorem nodup_members {fuel : Nat} {before es : List (Value × Value)} {cs rest : List Char}
    (hbefore : (Value.textKeys before).Nodup) (h : members? fuel before cs = some (es, rest)) :
    (Value.textKeys es).Nodup := by
  induction fuel generalizing before cs with
  | zero =>
    rw [members?] at h
    cases h
  | succ fuel ih =>
    rw [members?.eq_def] at h
    simp only at h
    split at h
    · obtain ⟨⟨key, cs'⟩, -, h⟩ := Option.bind_eq_some_iff.mp h
      simp only at h
      split at h
      · obtain ⟨⟨v, cs''⟩, -, h⟩ := Option.bind_eq_some_iff.mp h
        have hput := Value.nodup_putEntry hbefore key v
        simp only at h
        split at h
        · cases h
          exact hput
        · exact ih hput h
        · cases h
      · cases h
    · cases h

theorem single_number {negative : Bool} {cs rest : List Char} {v : Value}
    (h : number? negative cs = some (v, rest)) : Settings.Single v := by
  have hkinds : (∃ n, v = .whole n) ∨ ∃ x, v = .real x := by
    rw [number?.eq_def] at h
    grind
  rcases hkinds with ⟨n, rfl⟩ | ⟨x, rfl⟩
  · exact fun _ => Value.noConfusion
  · exact fun _ => Value.noConfusion

theorem single_scalar {cs rest : List Char} {v : Value} (h : scalar? cs = some (v, rest)) :
    Settings.Single v := by
  rw [scalar?.eq_def] at h
  split at h
  · next w u hw =>
    obtain rfl := (Prod.mk.inj (Option.some.inj h)).1
    have hmem := List.mem_of_find?_eq_some hw
    rw [words] at hmem
    rintro es rfl
    simp at hmem
  · split at h
    · exact single_number h
    · exact single_number h

theorem single_string {cs rest : List Char} {v : Value} (h : string? cs = some (v, rest)) :
    Settings.Single v := by
  obtain ⟨⟨ns, cs'⟩, -, h⟩ := Option.map_eq_some_iff.mp h
  obtain rfl := (Prod.mk.inj h).1
  rw [Value.ofPoints]
  split
  · exact fun _ => Value.noConfusion
  · exact fun _ => Value.noConfusion

/-- A record that JSON denotes has no key twice. -/
theorem nodup_read {s : String} {es : List (Value × Value)} (h : read? s = some (.record es)) :
    (Value.textKeys es).Nodup := by
  have hvalue : ∀ {fuel : Nat} {cs rest : List Char},
      value? fuel cs = some (.record es, rest) → (Value.textKeys es).Nodup := by
    intro fuel cs rest h
    cases fuel with
    | zero =>
      rw [value?] at h
      cases h
    | succ fuel =>
      rw [value?.eq_def] at h
      simp only at h
      split at h
      · exact absurd rfl (single_string h es)
      · split at h
        · cases h
        · obtain ⟨_, -, h⟩ := Option.map_eq_some_iff.mp h
          cases h
      · split at h
        · cases h
          exact List.nodup_nil
        · obtain ⟨⟨es', rest'⟩, hmembers, h⟩ := Option.map_eq_some_iff.mp h
          obtain rfl := Value.record.inj (Prod.mk.inj h).1
          have hnil : (Value.textKeys []).Nodup := List.nodup_nil
          exact nodup_members hnil hmembers
      · exact absurd rfl (single_scalar h es)
  rw [read?] at h
  split at h
  · next v rest hread =>
    split at h
    · obtain rfl := Option.some.inj h
      exact hvalue hread
    · cases h
  · cases h

end Json

namespace Settings

/-! ## Groups -/

/-- A group that has some values, or none at all. -/
def Carries (v : Option Value) (fs : Fields) : Prop := v = some (.ofFields fs) ∨ v = none ∧ fs = []

/-- Names under which a variable or a key is that of a single field. -/
structure Simple (names : List String) : Prop where
  letters : ∀ n ∈ names, n.toList.all nameLetters.contains = true
  path : ∀ n ∈ names, pathOf n.toList = [n.toList]

/-- The values of the variables of single fields. -/
def nestedFields (start group : String) (env : Environment) : Fields :=
  (Lookup.see { start } env).behind (nestedStart start group)

theorem nodup_nestedFields (start group : String) (env : Environment) :
    ((nestedFields start group env).map Prod.fst).Nodup :=
  Fields.nodup_behind (nodup_seen start env)

/-- Each of them is a text. -/
theorem single_nestedFields {start group : String} {env : Environment} {p : String × Value}
    (h : p ∈ nestedFields start group env) : Single p.2 := by
  obtain ⟨q, hq, hp⟩ := List.mem_filterMap.mp h
  obtain ⟨rest, -, rfl⟩ := Option.map_eq_some_iff.mp hp
  obtain ⟨t, ht⟩ := text_seen hq
  rw [ht]
  exact fun _ => Value.noConfusion

theorem get?_nestedFields {common : String} {env : Environment} (h : env.Distinct common)
    {start group : String} (hstart : common.toList <+: nestedStart start group) (n : String) :
    (nestedFields start group env).get? n =
      (env.get? (String.ofList (nestedStart start group ++ n.toList))).map .text := by
  rw [nestedFields, Fields.get?_behind, get?_seen start h]
  rw [String.toList_ofList]
  exact hstart.trans (List.prefix_append ..)

section

variable {start group : String} {env : Environment} {names : List String}

/-- All variables of a group are those of fields. -/
def NestedIn (start group : String) (names : List String) (env : Environment) : Prop :=
  ∀ p ∈ env.entries, ∀ rest,
    behind? (nestedStart start group) (Text.lower p.1).toList = some rest →
      String.ofList rest ∈ names

theorem NestedIn.seen (h : NestedIn start group names env) {p : String × Value}
    (hp : p ∈ Lookup.see { start } env) {rest : List Char}
    (hrest : behind? (nestedStart start group) p.1.toList = some rest) :
    String.ofList rest ∈ names := by
  obtain ⟨q, hq, hname⟩ := name_seen rfl hp
  exact h q hq rest (hname ▸ hrest)

theorem NestedIn.known (h : NestedIn start group names env) {p : String × Value}
    (hp : p ∈ nestedFields start group env) : p.1 ∈ names := by
  obtain ⟨q, hq, hp⟩ := List.mem_filterMap.mp hp
  obtain ⟨rest, hrest, rfl⟩ := Option.map_eq_some_iff.mp hp
  exact h.seen hq hrest

theorem nestedVariables_seen (hnames : Simple names) (h : NestedIn start group names env)
    (given : Fields) :
    nestedVariables ⟨given, { start }, Lookup.see { start } env⟩ group =
      (nestedFields start group env).entries := by
  refine nestedVariables_fields (fun p hp rest hrest => ?_) (fun p hp => ?_) (nodup_seen start env)
  · have hpath := hnames.path _ (h.seen hp hrest)
    simp only [String.toList_ofList] at hpath
    exact hpath
  · obtain ⟨t, ht⟩ := text_seen hp
    rw [ht]
    exact Value.noConfusion

/-- What the environment has for a group: variables of single fields over JSON. -/
theorem groupVariable_carries (hnames : Simple names) (h : NestedIn start group names env)
    {common : String} (hdistinct : env.Distinct common)
    (hcommon : common.toList <+: (Text.lower (start ++ group)).toList) {json : Fields}
    (hjson : ∀ t, env.get? (Text.lower (start ++ group)) = some t →
      Json.read? t = some (.ofFields json))
    (hnone : env.get? (Text.lower (start ++ group)) = none → json = [])
    (hknown : ∀ p ∈ json, p.1 ∈ names) (given : Fields) :
    ∃ v, groupVariable ⟨given, { start }, Lookup.see { start } env⟩ group names = .ok v ∧
      Carries v ((nestedFields start group env).atop json) := by
  have hget := get?_seen start hdistinct hcommon
  -- names of fields are in small letters already
  have hfold : ∀ fs : Fields, (∀ p ∈ fs, p.1 ∈ names) → (fs.map Prod.fst).Nodup →
      foldNames names fs.entries = fs.entries := fun fs hfs hnodup =>
    foldNames_fields (fun p hp => lower_name (hnames.letters _ (hfs p hp))) hnodup names
  rw [groupVariable, nestedVariables_seen hnames h]
  generalize hnested : nestedFields start group env = nested
  have hnestedKnown : ∀ p ∈ nested, p.1 ∈ names := fun p hp => h.known (hnested ▸ hp)
  have hnestedSingle : ∀ p ∈ nested, Single p.2 := fun p hp => single_nestedFields (hnested ▸ hp)
  have hnestedNodup : (nested.map Prod.fst).Nodup := hnested ▸ nodup_nestedFields start group env
  cases henv : env.get? (Text.lower (start ++ group)) with
  | none =>
    obtain rfl := hnone henv
    rw [henv] at hget
    have hget : Fields.get? (Lookup.see { start } env) (Lookup.variableName { start } group) =
        none := hget
    simp only [hget]
    refine ⟨_, rfl, ?_⟩
    rw [Fields.atop_nil hnestedNodup, hfold nested hnestedKnown hnestedNodup]
    cases nested with
    | nil => exact .inr ⟨rfl, rfl⟩
    | cons p nested => exact .inl rfl
  | some t =>
    rw [henv] at hget
    have hget : Fields.get? (Lookup.see { start } env) (Lookup.variableName { start } group) =
        some (.text t) := hget
    have hread : Json.read? t = some (.record json.entries) := hjson t henv
    -- nobody promised that the JSON names each field once: its reader sees to that
    have hjsonNodup : (json.map Prod.fst).Nodup := by
      have hkeys := Json.nodup_read hread
      rwa [Value.textKeys_entries] at hkeys
    have hatop : overlay (.record json.entries) (.record nested.entries) =
        .record (nested.atop json).entries :=
      overlay_fields hnestedSingle json
    have hknownAtop : ∀ p ∈ nested.atop json, p.1 ∈ names := by
      intro p hp
      rcases Fields.mem_atop hp with hp | hp
      · exact hnestedKnown p hp
      · exact hknown p hp
    refine ⟨some (.record (nested.atop json).entries), ?_, .inl rfl⟩
    simp only [hget, hread, hatop, if_neg Bool.false_ne_true,
      hfold (nested.atop json) hknownAtop (Fields.nodup_atop hjsonNodup nested)]

end

end Settings
end RedisGateway
