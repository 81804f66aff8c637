import Mathlib.Data.List.SplitBy
import RedisGateway.Proofs.Yaml.Cursor
import RedisGateway.Yaml.Writer

/-!
The runs of a text: spaces, line breaks, and words between them. Where spaces and line breaks do not
touch, each run of either is followed by a word (`parted_runs`).
-/

namespace RedisGateway.Yaml

open Writer (runs isSpaces isBreaks hasPair)

def IsSpaceRun (run : List Char) : Prop := ∃ n, run = List.replicate (n + 1) ' '

def IsBreakRun (run : List Char) : Prop := run ≠ [] ∧ ∀ ch ∈ run, isBreak ch = true

def IsWord (run : List Char) : Prop := run ≠ [] ∧ ∀ ch ∈ run, ch ≠ ' ' ∧ isBreak ch = false

theorem IsSpaceRun.isSpaces {run : List Char} (h : IsSpaceRun run) : isSpaces run = true := by
  obtain ⟨n, rfl⟩ := h
  simp [Writer.isSpaces, List.replicate_succ]

theorem IsBreakRun.isSpaces {run : List Char} (h : IsBreakRun run) : isSpaces run = false := by
  obtain ⟨br, brs, rfl⟩ := List.exists_cons_of_ne_nil h.1
  have hbr : br ≠ ' ' := by
    rintro rfl
    exact absurd (h.2 ' ' (by simp)) (by decide)
  simp [Writer.isSpaces, hbr]

theorem IsBreakRun.isBreaks {run : List Char} (h : IsBreakRun run) : isBreaks run = true := by
  obtain ⟨br, brs, rfl⟩ := List.exists_cons_of_ne_nil h.1
  simp [Writer.isBreaks, h.2 br]

theorem IsWord.isSpaces {run : List Char} (h : IsWord run) : isSpaces run = false := by
  obtain ⟨ch, cs, rfl⟩ := List.exists_cons_of_ne_nil h.1
  simp [Writer.isSpaces, (h.2 ch (by simp)).1]

theorem IsWord.isBreaks {run : List Char} (h : IsWord run) : isBreaks run = false := by
  obtain ⟨ch, cs, rfl⟩ := List.exists_cons_of_ne_nil h.1
  simp [Writer.isBreaks, (h.2 ch (by simp)).2]

/-! ## The runs of a text -/

/-- Spaces, line breaks and other characters are of different kinds. -/
def kindOf (ch : Char) : Nat := if ch = ' ' then 0 else if isBreak ch then 1 else 2

theorem runs_eq (cs : List Char) : runs cs = cs.splitBy fun a b => kindOf a = kindOf b := rfl

theorem runs_flatten (cs : List Char) : (runs cs).flatten = cs := List.flatten_splitBy _ cs

theorem nil_notMem_runs (cs : List Char) : [] ∉ runs cs := List.nil_notMem_splitBy _ cs

theorem kindOf_space : kindOf ' ' = 0 := rfl

theorem kindOf_break {ch : Char} (h : isBreak ch = true) : kindOf ch = 1 := by
  have hne : ch ≠ ' ' := by rintro rfl; exact absurd h (by decide)
  simp [kindOf, hne, h]

theorem eq_space_of_kind {ch : Char} (h : kindOf ch = 0) : ch = ' ' := by
  by_contra hne
  by_cases hbr : isBreak ch = true <;> simp [kindOf, hne, hbr] at h

theorem break_of_kind {ch : Char} (h : kindOf ch = 1) : isBreak ch = true := by
  by_cases hsp : ch = ' '
  · simp [kindOf, hsp] at h
  · by_contra hbr
    simp [kindOf, hsp, hbr] at h

theorem same_kind {cs run : List Char} (h : run ∈ runs cs) :
    ∃ ch ∈ run, ∀ x ∈ run, kindOf x = kindOf ch := by
  rw [runs_eq] at h
  obtain ⟨ch, rest, rfl⟩ := List.exists_cons_of_ne_nil (List.ne_nil_of_mem_splitBy h)
  have hchain := List.isChain_of_mem_splitBy h
  refine ⟨ch, by simp, ?_⟩
  clear h
  induction rest generalizing ch with
  | nil => simp
  | cons x rest ih =>
    have hx : kindOf ch = kindOf x := by simpa using (List.isChain_cons_cons.mp hchain).1
    intro y hy
    rcases List.mem_cons.mp hy with rfl | hy
    · rfl
    · exact (ih x (List.isChain_cons_cons.mp hchain).2 y hy).trans hx.symm

/-- Each run is of one of the three kinds. -/
theorem run_cases {cs run : List Char} (h : run ∈ runs cs) :
    IsSpaceRun run ∨ IsBreakRun run ∨ IsWord run := by
  have hne : run ≠ [] := List.ne_nil_of_mem_splitBy h
  obtain ⟨ch, -, hkind⟩ := same_kind h
  by_cases hsp : kindOf ch = 0
  · refine .inl ⟨run.length - 1, List.eq_replicate_iff.mpr ⟨?_, fun x hx => ?_⟩⟩
    · have := List.length_pos_iff.mpr hne
      omega
    · exact eq_space_of_kind ((hkind x hx).trans hsp)
  by_cases hbr : kindOf ch = 1
  · exact .inr (.inl ⟨hne, fun x hx => break_of_kind ((hkind x hx).trans hbr)⟩)
  · refine .inr (.inr ⟨hne, fun x hx => ⟨?_, ?_⟩⟩)
    · rintro rfl
      exact hsp ((hkind _ hx).symm.trans kindOf_space)
    · rw [← Bool.not_eq_true]
      exact fun hx' => hbr ((hkind x hx).symm.trans (kindOf_break hx'))

/-! ## Neighbours -/

/-- No character of one class stands in front of one of the other. -/
theorem isChain_of_hasPair {p q : Char → Bool} {cs : List Char} (h : hasPair p q cs = false) :
    cs.IsChain fun a b => p a = true → q b = false := by
  induction cs with
  | nil => exact .nil
  | cons a cs ih =>
    cases cs with
    | nil => exact .singleton a
    | cons b cs =>
      simp only [hasPair, Bool.or_eq_false_iff, Bool.and_eq_false_iff] at h
      refine .cons_cons (fun ha => ?_) (ih h.2)
      rcases h.1 with h | h
      · simp [ha] at h
      · exact h

/-- The last character of a run and the first one of the next are neighbours. -/
theorem runs_isChain {R : Char → Char → Prop} {cs : List Char} (h : cs.IsChain R) :
    (runs cs).IsChain fun a b => ∀ x ∈ a.getLast?, ∀ y ∈ b.head?, R x y := by
  rw [← runs_flatten cs, List.isChain_flatten (nil_notMem_runs cs)] at h
  exact h.2

theorem runs_differ (cs : List Char) :
    (runs cs).IsChain fun a b => ∀ x ∈ a.getLast?, ∀ y ∈ b.head?, kindOf x ≠ kindOf y := by
  rw [runs_eq]
  refine (List.isChain_getLast_head_splitBy _ cs).imp fun a b hab x hx y hy => ?_
  obtain ⟨ha, hb, h⟩ := hab
  rw [List.getLast?_eq_some_getLast ha, Option.mem_some_iff] at hx
  rw [List.head?_eq_some_head hb, Option.mem_some_iff] at hy
  subst hx hy
  exact of_decide_eq_false h

/-- Behind spaces or line breaks comes a word, if anything. -/
def Parted : List (List Char) → Prop
  | [] => True
  | run :: rest =>
    (IsWord run ∨ ((IsSpaceRun run ∨ IsBreakRun run) ∧ ∀ next ∈ rest.head?, IsWord next)) ∧
      Parted rest

theorem word_of_kinds {a b : List Char} (ha : IsSpaceRun a ∨ IsBreakRun a)
    (hb : IsSpaceRun b ∨ IsBreakRun b ∨ IsWord b)
    (hdiffer : ∀ x ∈ a.getLast?, ∀ y ∈ b.head?, kindOf x ≠ kindOf y)
    (hbr : ∀ x ∈ a.getLast?, ∀ y ∈ b.head?, isBreak x = true → decide (y = ' ') = false)
    (hsp : ∀ x ∈ a.getLast?, ∀ y ∈ b.head?, decide (x = ' ') = true → isBreak y = false) :
    IsWord b := by
  have hlast : ∃ x ∈ a.getLast?, x = ' ' ∨ isBreak x = true := by
    rcases ha with ⟨n, rfl⟩ | ⟨hne, ha⟩
    · exact ⟨' ', by simp [List.getLast?_replicate], .inl rfl⟩
    · exact ⟨a.getLast hne, by simp [List.getLast?_eq_some_getLast hne],
        .inr (ha _ (List.getLast_mem hne))⟩
  obtain ⟨x, hx, hkind⟩ := hlast
  rcases hb with ⟨n, rfl⟩ | ⟨hne, hb⟩ | hb
  · have hy : ' ' ∈ (List.replicate (n + 1) ' ').head? := by simp [List.replicate_succ]
    rcases hkind with rfl | hxbr
    · exact absurd rfl (hdiffer _ hx _ hy)
    · exact absurd (hbr x hx _ hy hxbr) (by decide)
  · have hy : b.head hne ∈ b.head? := by simp [List.head?_eq_some_head hne]
    have hybr : isBreak (b.head hne) = true := hb _ (List.head_mem hne)
    rcases hkind with rfl | hxbr
    · exact absurd (hsp _ hx _ hy (by decide)) (by simp [hybr])
    · exact absurd ((kindOf_break hxbr).trans (kindOf_break hybr).symm) (hdiffer x hx _ hy)
  · exact hb

/-- Where no space touches a line break, the runs of spaces and line breaks are parted by words. -/
theorem parted_runs {cs : List Char} (hbr : hasPair isBreak (· = ' ') cs = false)
    (hsp : hasPair (· = ' ') isBreak cs = false) : Parted (runs cs) := by
  have hcases : ∀ run ∈ runs cs, IsSpaceRun run ∨ IsBreakRun run ∨ IsWord run :=
    fun run hrun => run_cases hrun
  have hdiffer := runs_differ cs
  have hbr := runs_isChain (isChain_of_hasPair hbr)
  have hsp := runs_isChain (isChain_of_hasPair hsp)
  generalize runs cs = rs at hcases hdiffer hbr hsp ⊢
  induction rs with
  | nil => trivial
  | cons run rest ih =>
    refine ⟨?_, ih (fun r hr => hcases r (by simp [hr])) hdiffer.tail hbr.tail hsp.tail⟩
    rcases or_assoc.mpr (hcases run (by simp)) with hrun | hrun
    · refine .inr ⟨hrun, fun next hnext => ?_⟩
      cases rest with
      | nil => simp at hnext
      | cons b rest =>
        obtain rfl : b = next := by simpa using hnext
        exact word_of_kinds hrun (hcases b (by simp)) (List.isChain_cons_cons.mp hdiffer).1
          (List.isChain_cons_cons.mp hbr).1 (List.isChain_cons_cons.mp hsp).1
    · exact .inl hrun

end RedisGateway.Yaml
