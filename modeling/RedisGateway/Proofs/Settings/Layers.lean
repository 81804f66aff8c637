import RedisGateway.Proofs.Settings.Given
import Mathlib.Data.List.Induction
import Mathlib.Data.List.Nodup

/-!
Named values over other named values, where each name by itself keeps its strongest value. Records
whose names are those of fields come down to such layers: what is given over what the environment
has, variables of single fields over the JSON of their group, and the variables themselves as they
are seen.
-/

namespace RedisGateway

namespace Fields

@[simp] theorem get?_nil (n : String) : get? [] n = none := rfl

theorem get?_cons (p : String × Value) (fs : Fields) (n : String) :
    get? (p :: fs) n = if n = p.1 then some p.2 else get? fs n := by
  rw [get?, List.lookup_cons]
  by_cases hn : n = p.1
  · rw [if_pos hn, beq_iff_eq.mpr hn]
  · rw [if_neg hn, beq_eq_false_iff_ne.mpr hn]
    rfl

theorem get?_eq_none {fs : Fields} {n : String} : fs.get? n = none ↔ n ∉ fs.map Prod.fst := by
  rw [get?, List.lookup_eq_none_iff, List.mem_map]
  constructor
  · rintro h ⟨p, hp, rfl⟩
    exact absurd (h p hp) (by simp)
  · intro h p hp
    simp only [bne_iff_ne, ne_eq]
    rintro rfl
    exact h ⟨p, hp, rfl⟩

theorem get?_of_mem {fs : Fields} (hnodup : (fs.map Prod.fst).Nodup) {p : String × Value}
    (hp : p ∈ fs) : fs.get? p.1 = some p.2 := by
  induction fs with
  | nil => cases hp
  | cons q fs ih =>
    obtain ⟨hq, hnodup⟩ := List.nodup_cons.mp hnodup
    rw [get?_cons]
    rcases List.mem_cons.mp hp with rfl | hp
    · rw [if_pos rfl]
    · have hne : p.1 ≠ q.1 := fun heq => hq (heq ▸ List.mem_map_of_mem hp)
      rw [if_neg hne, ih hnodup hp]

theorem put_new {fs : Fields} {n : String} (h : n ∉ fs.map Prod.fst) (v : Value) :
    fs.put n v = fs ++ [(n, v)] := by
  rw [put, if_neg]
  rw [List.any_eq_true]
  rintro ⟨p, hp, hn⟩
  exact h (List.mem_map.mpr ⟨p, hp, of_decide_eq_true hn⟩)

theorem put_old {fs : Fields} {n : String} (h : n ∈ fs.map Prod.fst) (v : Value) :
    fs.put n v = fs.map fun f => if f.1 = n then (n, v) else f := by
  rw [put, if_pos]
  obtain ⟨p, hp, hn⟩ := List.mem_map.mp h
  exact List.any_eq_true.mpr ⟨p, hp, decide_eq_true hn⟩

/-- A value is put under a new name at the end, or where the name stands. -/
theorem names_put (fs : Fields) (n : String) (v : Value) : (fs.put n v).map Prod.fst =
    if n ∈ fs.map Prod.fst then fs.map Prod.fst else fs.map Prod.fst ++ [n] := by
  by_cases hn : n ∈ fs.map Prod.fst
  · rw [if_pos hn, put_old hn, List.map_map]
    refine List.map_congr_left fun f _ => ?_
    by_cases hf : f.1 = n
    · simp [hf]
    · simp [hf]
  · rw [if_neg hn, put_new hn, List.map_append, List.map_singleton]

theorem eq_or_mem_of_mem_put {fs : Fields} {n : String} {v : Value} {p : String × Value}
    (h : p ∈ fs.put n v) : p = (n, v) ∨ p ∈ fs := by
  rw [put] at h
  split at h
  · obtain ⟨q, hq, rfl⟩ := List.mem_map.mp h
    split
    · exact .inl rfl
    · exact .inr hq
  · rcases List.mem_append.mp h with h | h
    · exact .inr h
    · exact .inl (List.mem_singleton.mp h)

theorem get?_append (fs gs : Fields) (n : String) :
    get? (fs ++ gs) n = (fs.get? n).or (gs.get? n) := by
  induction fs with
  | nil => rfl
  | cons p fs ih =>
    rw [List.cons_append, get?_cons, get?_cons, ih]
    split <;> rfl

theorem get?_replaced (fs : Fields) (k n : String) (v : Value) :
    get? (fs.map fun f => if f.1 = k then (k, v) else f) n =
      if n = k then (fs.get? n).map fun _ => v else fs.get? n := by
  induction fs with
  | nil => simp
  | cons p fs ih =>
    rw [List.map_cons, get?_cons, get?_cons, ih]
    by_cases hp : p.1 = k
    · by_cases hn : n = k
      · simp [hp, hn]
      · simp [hp, hn]
    · by_cases hn : n = k
      · subst hn
        simp [hp, Ne.symm hp]
      · simp [hp, hn]

@[simp] theorem get?_put (fs : Fields) (k n : String) (v : Value) :
    (fs.put k v).get? n = if n = k then some v else fs.get? n := by
  by_cases hk : k ∈ fs.map Prod.fst
  · rw [put_old hk, get?_replaced]
    by_cases hn : n = k
    · subst hn
      obtain ⟨w, hw⟩ := Option.ne_none_iff_exists'.mp (mt get?_eq_none.mp (not_not_intro hk))
      simp [hw]
    · simp [hn]
  · rw [put_new hk, get?_append, get?_cons, get?_nil]
    by_cases hn : n = k
    · subst hn
      simp [get?_eq_none.mpr hk]
    · simp [hn]

/-! ## Layers -/

/-- Values over other ones: each takes the place of the one under its name. -/
def atop (strong weak : Fields) : Fields := strong.foldl (fun fs p => fs.put p.1 p.2) weak

@[simp] theorem atop_cons (p : String × Value) (strong weak : Fields) :
    atop (p :: strong) weak = strong.atop (weak.put p.1 p.2) := rfl

/-- A name that is not repeated has its strongest value. -/
theorem get?_atop_of_count {strong : Fields} {n : String} (h : (strong.map Prod.fst).count n ≤ 1)
    (weak : Fields) : (strong.atop weak).get? n = (strong.get? n).or (weak.get? n) := by
  induction strong generalizing weak with
  | nil => rfl
  | cons p strong ih =>
    rw [List.map_cons, List.count_cons] at h
    rw [atop_cons, ih (by omega), get?_put, get?_cons]
    by_cases hn : n = p.1
    · -- the name is not repeated, so nothing further on takes the place of this value
      have hnone : get? strong n = none := by
        refine get?_eq_none.mpr (List.count_eq_zero.mp ?_)
        rw [if_pos (beq_iff_eq.mpr hn.symm)] at h
        omega
      rw [if_pos hn, if_pos hn, hnone]
      rfl
    · rw [if_neg hn, if_neg hn]

theorem get?_atop {strong : Fields} (h : (strong.map Prod.fst).Nodup) (weak : Fields) (n : String) :
    (strong.atop weak).get? n = (strong.get? n).or (weak.get? n) :=
  get?_atop_of_count (List.nodup_iff_count_le_one.mp h n) weak

theorem mem_atop {strong weak : Fields} {p : String × Value} (h : p ∈ strong.atop weak) :
    p ∈ strong ∨ p ∈ weak := by
  induction strong generalizing weak with
  | nil => exact .inr h
  | cons q strong ih =>
    rcases ih h with h | h
    · exact .inl (List.mem_cons_of_mem _ h)
    · rcases eq_or_mem_of_mem_put h with rfl | h
      · exact .inl List.mem_cons_self
      · exact .inr h

theorem nodup_atop {weak : Fields} (h : (weak.map Prod.fst).Nodup) (strong : Fields) :
    ((strong.atop weak).map Prod.fst).Nodup := by
  induction strong generalizing weak with
  | nil => exact h
  | cons p strong ih =>
    refine ih ?_
    rw [names_put]
    split
    · exact h
    · next hp =>
      refine List.nodup_append.mpr ⟨h, List.nodup_cons.mpr ⟨List.not_mem_nil, .nil⟩, ?_⟩
      rintro n hn m hm rfl
      exact hp (List.mem_singleton.mp hm ▸ hn)

/-- Over nothing, values without repeated names are as they are. -/
theorem atop_nil {fs : Fields} (h : (fs.map Prod.fst).Nodup) : fs.atop [] = fs := by
  -- by induction over the values, with those put so far in front
  have hall : ∀ before : Fields, ((before ++ fs).map Prod.fst).Nodup →
      fs.atop before = before ++ fs := by
    clear h
    induction fs with
    | nil => exact fun before _ => (List.append_nil before).symm
    | cons p fs ih =>
      intro before h
      have hnew : p.1 ∉ before.map Prod.fst := by
        intro hp
        rw [List.map_append, List.nodup_append] at h
        exact h.2.2 p.1 hp p.1 List.mem_cons_self rfl
      have hrest := ih (before ++ [p]) (by simpa using h)
      rw [atop_cons, put_new hnew, hrest, List.append_assoc, List.singleton_append]
  exact hall [] h

end Fields

namespace Value

theorem putEntry_entries (fs : Fields) (n : String) (v : Value) :
    putEntry fs.entries (.text n) v = (fs.put n v).entries := by
  have hany : fs.entries.any (same ·.1 (.text n)) = fs.any (·.1 = n) := by
    rw [Fields.entries, List.any_map]
    exact congrArg fs.any (funext fun p => same_text p.1 n)
  rw [putEntry, hany, Fields.put]
  split
  · rw [Fields.entries, Fields.entries, List.map_map, List.map_map]
    refine List.map_congr_left fun p _ => ?_
    simp only [Function.comp_apply, same_text, decide_eq_true_eq]
    by_cases hp : p.1 = n
    · simp [hp]
    · simp [hp]
  · rw [Fields.entries, Fields.entries, List.map_append]
    rfl

end Value

namespace Settings

theorem Entries.put_entries (fs : Fields) (n : String) (v : Value) :
    Entries.put fs.entries n v = (fs.put n v).entries :=
  Value.putEntry_entries fs n v

theorem Entries.get?_entries (fs : Fields) (n : String) :
    Entries.get? fs.entries n = fs.get? n := by
  induction fs with
  | nil => rfl
  | cons p fs ih =>
    rw [Fields.get?_cons, ← ih, Entries.get?, Fields.entries_cons, List.find?_cons]
    by_cases hn : n = p.1
    · simp [Value.isText, Value.text?, hn]
    · have hne : (Value.text p.1).isText n = false := by
        simp [Value.isText, Value.text?, Ne.symm hn]
      rw [hne, if_neg hn]
      rfl

/-- A value that is no record. -/
def Single (v : Value) : Prop := ∀ es, v ≠ .record es

theorem overlay_single {v : Value} (h : Single v) (w : Value) : overlay w v = v := by
  cases v with
  | record es => exact absurd rfl (h es)
  | _ => simp only [overlay]

/-- A record of single values over another one is one layer over the other. -/
theorem overlayEntries_fields {strong : Fields} (h : ∀ p ∈ strong, Single p.2) (weak : Fields) :
    overlayEntries weak.entries strong.entries = (strong.atop weak).entries := by
  induction strong generalizing weak with
  | nil => exact overlayEntries.eq_1 _
  | cons p strong ih =>
    have hrest := ih (fun q hq => h q (List.mem_cons_of_mem _ hq)) (weak.put p.1 p.2)
    rw [Fields.entries_cons, overlayEntries, Fields.atop_cons, ← hrest, ← Entries.put_entries]
    cases Entries.get? weak.entries p.1 with
    | none => rfl
    | some w => simp only [overlay_single (h p List.mem_cons_self)]

theorem overlay_fields {strong : Fields} (h : ∀ p ∈ strong, Single p.2) (weak : Fields) :
    overlay (.ofFields weak) (.ofFields strong) = .ofFields (strong.atop weak) := by
  change overlay (.record weak.entries) (.record strong.entries) = .record (Fields.entries _)
  rw [overlay, overlayEntries_fields h]

/-- Names that are their own lower case stay as they are. -/
theorem foldNames_fields {fs : Fields} (h : ∀ p ∈ fs, Text.lower p.1 = p.1)
    (hnodup : (fs.map Prod.fst).Nodup) (names : List String) :
    foldNames names fs.entries = fs.entries := by
  induction fs using List.reverseRecOn with
  | nil => rfl
  | append_singleton fs p ih =>
    obtain ⟨hfs, -, hnew⟩ := List.nodup_append.mp (List.map_append ▸ hnodup)
    have hput : Fields.put fs p.1 p.2 = fs ++ [p] :=
      Fields.put_new (fun hp => hnew p.1 hp p.1 List.mem_cons_self rfl) p.2
    have hstep : foldNames names (Fields.entries (fs ++ [p])) =
        Entries.put (foldNames names (Fields.entries fs))
          (if names.contains (Text.lower p.1) then Text.lower p.1 else p.1) p.2 := by
      rw [foldNames, foldNames, Fields.entries, List.map_append, List.foldl_append]
      rfl
    rw [hstep, ih (fun q hq => h q (List.mem_append_left _ hq)) hfs,
      h p (List.mem_append_right _ List.mem_cons_self), ite_self, Entries.put_entries, hput]

end Settings
end RedisGateway
