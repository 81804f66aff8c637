import RedisGateway.Settings.Resolve

/-!
Where settings come from when all of them are given: what is given is taken as it is
(`resolve_given`), and an environment without variables of the settings adds nothing
(`groupVariable_without`).
-/

namespace RedisGateway.Settings

/-! ## Names -/

/-- The characters of names of fields. -/
def nameLetters : List Char := "abcdefghijklmnopqrstuvwxyz_".toList

theorem lowerAfter_small {ns before : List Nat}
    (h : ∀ n ∈ ns, n ≠ 'Σ'.toNat ∧ n ≠ 'İ'.toNat ∧ Text.smallLetter? n = none) :
    Text.lowerAfter before ns = ns := by
  induction ns generalizing before with
  | nil => rfl
  | cons n ns ih =>
    obtain ⟨⟨hsigma, hdotted, hsmall⟩, hns⟩ := List.forall_mem_cons.mp h
    rw [Text.lowerAfter, if_neg hsigma, if_neg hdotted, hsmall, ih hns]
    rfl

theorem points_of_letters {s : String} (h : s.toList.all nameLetters.contains = true) :
    ∀ n ∈ Text.points s, n ≠ 'Σ'.toNat ∧ n ≠ 'İ'.toNat ∧ Text.smallLetter? n = none := by
  -- a check of the list, since a statement about characters is decided for every character there is
  have hletters : nameLetters.all (fun c => decide (c.toNat ≠ 'Σ'.toNat ∧ c.toNat ≠ 'İ'.toNat ∧
      Text.smallLetter? c.toNat = none)) = true := by
    decide +kernel
  intro n hn
  obtain ⟨c, hc, rfl⟩ := List.mem_map.mp hn
  have hletter := List.contains_iff_mem.mp (List.all_eq_true.mp h c hc)
  exact of_decide_eq_true (List.all_eq_true.mp hletters c hletter)

/-- Names of small letters and underscores are their own lower case. -/
theorem lower_name {s : String} (h : s.toList.all nameLetters.contains = true) :
    Text.lower s = s := by
  rw [Text.lower, Text.lowerPoints, lowerAfter_small (points_of_letters h), Text.ofPoints_points]

/-- Only a sigma has to do with what comes after it. -/
theorem lowerAfter_append {ns : List Nat} (h : ∀ n ∈ ns, n ≠ 'Σ'.toNat) (before ms : List Nat) :
    Text.lowerAfter before (ns ++ ms) =
      Text.lowerAfter before ns ++ Text.lowerAfter (ns.reverse ++ before) ms := by
  induction ns generalizing before with
  | nil => rfl
  | cons n ns ih =>
    obtain ⟨hn, hns⟩ := List.forall_mem_cons.mp h
    rw [List.cons_append, Text.lowerAfter, Text.lowerAfter, if_neg hn, if_neg hn, ih hns,
      List.append_assoc, List.reverse_cons, List.append_assoc, List.singleton_append]

/-- Behind another text a name is in lower case as it is by itself. -/
theorem lower_append {start name : String} (hstart : 'Σ' ∉ start.toList)
    (hname : name.toList.all nameLetters.contains = true) :
    Text.lower (start ++ name) = Text.lower start ++ name := by
  have hsigma : ∀ n ∈ Text.points start, n ≠ 'Σ'.toNat := by
    intro n hn
    obtain ⟨c, hc, rfl⟩ := List.mem_map.mp hn
    intro heq
    rw [← Text.charAt_toNat c, heq, Text.charAt_toNat] at hc
    exact hstart hc
  have hpoints : Text.points (start ++ name) = Text.points start ++ Text.points name := by
    rw [Text.points, String.toList_append, List.map_append]
    rfl
  rw [Text.lower, Text.lowerPoints, hpoints, lowerAfter_append hsigma,
    lowerAfter_small (points_of_letters hname), Text.ofPoints, List.map_append,
    String.ofList_append]
  exact congrArg _ (Text.ofPoints_points name)

/-! ## What is given -/

/-- Values under the names of fields, as those are written. -/
structure Plain (names : List String) (given : Fields) : Prop where
  known : ∀ p ∈ given, p.1 ∈ names
  letters : ∀ n ∈ names, n.toList.all nameLetters.contains = true
  free : ∀ n ∈ names, n ∉ Lookup.keywords

section Given

variable {names : List String} {given : Fields}

/-- A lookup that nothing describes. -/
theorem describedBy_plain {l : Lookup} (h : ∀ p ∈ given, p.1 ∉ Lookup.keywords) :
    l.describedBy given = .ok (l, given) := by
  have hnone : ∀ name ∈ Lookup.keywords, given.get? name = none := by
    intro name hname
    rw [Fields.get?, List.lookup_eq_none_iff]
    intro p hp
    simp only [bne_iff_ne, ne_eq]
    rintro rfl
    exact h p hp hname
  have hfree : ∀ a v, (a, v) ∈ given → a ∉ Lookup.keywords := fun a v hav => h (a, v) hav
  rw [Lookup.describedBy]
  simpa [hnone "_env_prefix" (by decide), hnone "_env_nested_delimiter" (by decide),
    hnone "_env_nested_max_split" (by decide), hnone "_env_file" (by decide),
    hnone "_secrets_dir" (by decide), hnone "_case_sensitive" (by decide),
    hnone "_env_ignore_empty" (by decide), hnone "_env_parse_none_str" (by decide),
    hnone "_env_parse_enums" (by decide), bind, Except.bind, pure, Except.pure, ForIn.forIn]
    using hfree

theorem lookup_folded {given : Fields} (h : ∀ p ∈ given, Text.lower p.1 = p.1) (n : String) :
    ((given.map fun p => (Text.lower p.1, p)).lookup n).map (fun p => (n, p.2)) =
      (given.get? n).map (n, ·) := by
  induction given with
  | nil => rfl
  | cons p given ih =>
    have hrest := ih fun x hx => h x (List.mem_cons_of_mem _ hx)
    obtain ⟨k, v⟩ := p
    have hk : Text.lower k = k := h (k, v) List.mem_cons_self
    by_cases hn : n = k
    · subst hn
      simp [Fields.get?, hk]
    · have hne : (n == k) = false := by simpa using hn
      simpa [Fields.get?, hk, List.lookup_cons, hne] using hrest

theorem canonicalNames_plain (h : Plain names given) :
    canonicalNames names given = names.filterMap fun n => (given.get? n).map (n, ·) := by
  have hfolded : ∀ p ∈ given, Text.lower p.1 = p.1 := fun p hp =>
    lower_name (h.letters p.1 (h.known p hp))
  have hunknown : ((given.map fun p => (Text.lower p.1, p)).filter
      fun p => !names.contains p.1) = [] := by
    rw [List.filter_eq_nil_iff, List.forall_mem_map]
    intro p hp
    simp [hfolded p hp, h.known p hp]
  rw [canonicalNames, hunknown]
  simp [lookup_folded hfolded]

theorem lookup_picked {value? : String → Option Value} (names : List String) (n : String) :
    (names.filterMap fun n => (value? n).map (n, ·)).lookup n =
      if n ∈ names then value? n else none := by
  induction names with
  | nil => rfl
  | cons m names ih =>
    by_cases hn : n = m
    · subst hn
      cases hv : value? n with
      | none => simp [hv, ih]
      | some v => simp [hv]
    · have hne : (n == m) = false := by simpa using hn
      cases hv : value? m with
      | none => simp [hv, ih, hn]
      | some v => simp [hv, ih, hn, List.lookup_cons, hne]

/-- Fields that are given are read as they are given. -/
theorem sourcesOf_plain (start : String) (h : Plain names given) (env : Environment) :
    ∃ s, sourcesOf start names given env = .ok s ∧ unknownNames names s = [] ∧
      s.lookup = { start } ∧ s.seen = Lookup.see { start } env ∧
        ∀ n ∈ names, s.given.get? n = given.get? n := by
  have hfree : ∀ p ∈ given, p.1 ∉ Lookup.keywords := fun p hp => h.free p.1 (h.known p hp)
  refine ⟨⟨canonicalNames names given, { start }, Lookup.see { start } env⟩, ?_, ?_, rfl, rfl,
    fun n hn => ?_⟩
  · rw [sourcesOf, describedBy_plain hfree]
    rfl
  · rw [unknownNames, canonicalNames_plain h, List.map_eq_nil_iff, List.filter_eq_nil_iff]
    intro p hp
    obtain ⟨n, hn, hp⟩ := List.mem_filterMap.mp hp
    obtain ⟨v, -, rfl⟩ := Option.map_eq_some_iff.mp hp
    simp [hn]
  · rw [canonicalNames_plain h, Fields.get?, lookup_picked, if_pos hn]

/-- A field that is given is read from what is given. -/
theorem resolve_given {α : Type} {f : FieldRule α} {s : Sources} {v : Value}
    (h : s.given.get? f.name = some v) : f.resolve s = f.readAs f.name (some v) := by
  rw [FieldRule.resolve, Sources.value?, h, Option.some_or]

end Given

/-! ## The environment -/

end Settings

/-- No variable has a name that begins with a text, in whatever case. -/
def Environment.Without (start : String) (env : Environment) : Prop :=
  ∀ p ∈ env.entries, ¬ start.toList <+: (Text.lower p.1).toList

namespace Settings

section Environment

variable {start group : String} {env : Environment}

theorem mem_put {fs : Fields} {name : String} {v : Value} {p : String × Value}
    (h : p ∈ fs.put name v) : p.1 = name ∨ ∃ q ∈ fs, q.1 = p.1 := by
  rw [Fields.put] at h
  split at h
  · obtain ⟨q, hq, rfl⟩ := List.mem_map.mp h
    split
    · exact .inl rfl
    · exact .inr ⟨q, hq, rfl⟩
  · rcases List.mem_append.mp h with h | h
    · exact .inr ⟨p, h, rfl⟩
    · exact .inl (by rw [List.mem_singleton.mp h])

/-- The variables that are seen have the names of variables, in lower case. -/
theorem name_seen {l : Lookup} (hl : l.caseMatters = false) {p : String × Value}
    (h : p ∈ l.see env) : ∃ q ∈ env.entries, p.1 = Text.lower q.1 := by
  have hfold : ∀ (qs : List (String × String)) (fs : Fields),
      (∀ p ∈ fs, ∃ q ∈ env.entries, p.1 = Text.lower q.1) → (∀ q ∈ qs, q ∈ env.entries) →
      ∀ p ∈ qs.foldl (fun fs q => fs.put (l.fold q.1) (l.meaning q.2)) fs,
        ∃ q ∈ env.entries, p.1 = Text.lower q.1 := by
    intro qs
    induction qs with
    | nil => exact fun fs hfs _ => hfs
    | cons q qs ih =>
      intro fs hfs hqs
      refine ih _ (fun p hp => ?_) fun x hx => hqs x (List.mem_cons_of_mem _ hx)
      rcases mem_put hp with hname | ⟨x, hx, hname⟩
      · exact ⟨q, hqs q List.mem_cons_self, by rw [hname, Lookup.fold, hl]; rfl⟩
      · exact hname ▸ hfs x hx
  exact hfold _ [] nofun (fun q hq => (List.mem_filter.mp hq).1) p h

theorem name_of_behind {separator cs rest : List Char} (h : behind? separator cs = some rest) :
    separator <+: cs := by
  induction separator generalizing cs with
  | nil => exact List.nil_prefix
  | cons c separator ih =>
    cases cs with
    | nil => cases h
    | cons d cs =>
      rw [behind?] at h
      split at h
      · next hc => exact List.cons_prefix_cons.mpr ⟨hc, ih h⟩
      · cases h

/-- No variable of a group is seen in an environment without them. -/
theorem groupVariable_without {s : Sources} {names : List String} (henv : env.Without start)
    (hlookup : s.lookup.caseMatters = false) (hseen : s.seen = s.lookup.see env)
    (hgroup : start.toList <+: (s.lookup.variableName group).toList) :
    groupVariable s group names = .ok none := by
  have hnames : ∀ p ∈ s.seen, ¬ start.toList <+: p.1.toList := by
    intro p hp
    rw [hseen] at hp
    obtain ⟨q, hq, hname⟩ := name_seen hlookup hp
    rw [hname]
    exact henv q hq
  have hvariable : s.seen.get? (s.lookup.variableName group) = none := by
    rw [Fields.get?, List.lookup_eq_none_iff]
    intro p hp
    simp only [bne_iff_ne, ne_eq]
    intro heq
    exact hnames p hp (heq ▸ hgroup)
  have hnested : nestedVariables s group = [] := by
    have hbehind : ∀ p ∈ s.seen, behind?
        ((s.lookup.variableName group).toList ++ s.lookup.separator.toList) p.1.toList = none := by
      intro p hp
      refine Option.eq_none_iff_forall_ne_some.mpr fun rest hrest => hnames p hp ?_
      exact (hgroup.trans (List.prefix_append ..)).trans (name_of_behind hrest)
    rw [nestedVariables]
    split
    · rfl
    · generalize s.seen = seen at hbehind
      induction seen with
      | nil => rfl
      | cons p seen ih =>
        rw [List.foldl_cons, hbehind p List.mem_cons_self]
        exact ih fun q hq => hbehind q (List.mem_cons_of_mem _ hq)
  simp [groupVariable, hnested, hvariable]

end Environment
end RedisGateway.Settings
