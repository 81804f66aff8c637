import Mathlib.Data.List.TakeWhile
import Mathlib.Tactic.FinCases
import Mathlib.Tactic.IntervalCases
import RedisGateway.Proofs.Yaml.Fetching
import RedisGateway.Yaml.Atom

/-!
Decimal numerals as integers are written: plain, they have the form of an integer (`ofPlain_whole`),
and unless there are too many digits they are read as the integer (`integerOf_whole`).
-/

namespace RedisGateway.Yaml

open Text

/-! ## Digits -/

/-- The decimal digits. -/
def decimals : List Char := ['0', '1', '2', '3', '4', '5', '6', '7', '8', '9']

theorem mem_decimals {c : Char} (h : c.isDigit = true) : c ∈ decimals := by
  simp only [Char.isDigit, Bool.and_eq_true, decide_eq_true_eq] at h
  have hlow : 48 ≤ c.toNat := h.1
  have hhigh : c.toNat ≤ 57 := h.2
  rw [← Char.ofNat_toNat c]
  interval_cases c.toNat <;> decide

theorem toDigits_decimals (m : Nat) : ∀ c ∈ Nat.toDigits 10 m, c ∈ decimals := fun c hc =>
  mem_decimals (Nat.isDigit_of_mem_toDigits (by decide) (by decide) hc)

/-- The digits of a positive number do not begin with a zero. -/
theorem toDigits_cons {m : Nat} (hm : 0 < m) :
    ∃ c cs, Nat.toDigits 10 m = c :: cs ∧ c ∈ decimals.tail := by
  induction m using Nat.strong_induction_on with
  | _ m ih =>
    rcases Nat.lt_or_ge m 10 with hlt | hge
    · refine ⟨m.digitChar, [], Nat.toDigits_of_lt_base hlt, ?_⟩
      interval_cases m <;> decide
    · obtain ⟨c, cs, hcs, hc⟩ := ih (m / 10) (by omega) (by omega)
      exact ⟨c, _, by rw [Nat.toDigits_of_base_le (by decide) hge, hcs, List.cons_append], hc⟩

/-- An integer as it is written: a sign, if it is negative, and digits. -/
theorem toString_whole (n : Int) :
    (toString n).toList = (if 0 ≤ n then [] else ['-']) ++ Nat.toDigits 10 n.natAbs := by
  rw [Int.toString_eq_repr, Int.repr_eq_if]
  split
  · next h =>
    obtain ⟨m, rfl⟩ := Int.eq_ofNat_of_zero_le h
    simp
  · next h =>
    have : (-n).toNat = n.natAbs := by omega
    simp [this]

/-! ## Words -/

/-- What is known of a decimal digit. -/
structure Decimal (c : Char) : Prop where
  ink : isInk c = true
  inline : isInline c = true
  writable : isWritable c = true
  noIndicator : Scanner.isIndicator c = false
  noMark : c ≠ '#' ∧ c ≠ ':' ∧ c ≠ '_' ∧ c ≠ '-' ∧ c ≠ '+' ∧ c ≠ '\n'
  digit : isDigit c = true
  ascii : toAscii c = c
  notBlank : isAsciiBlank c = false

theorem decimal_of_mem {c : Char} (h : c ∈ decimals) : Decimal c := by
  have hall : decimals.all (fun c => decide (isInk c = true ∧ isInline c = true ∧
      isWritable c = true ∧ Scanner.isIndicator c = false ∧
      (c ≠ '#' ∧ c ≠ ':' ∧ c ≠ '_' ∧ c ≠ '-' ∧ c ≠ '+' ∧ c ≠ '\n') ∧ isDigit c = true ∧
      toAscii c = c ∧ isAsciiBlank c = false)) = true := by
    decide +kernel
  obtain ⟨hink, hinline, hwritable, hindicator, hmark, hdigit, hascii, hblank⟩ :=
    of_decide_eq_true (List.all_eq_true.mp hall c h)
  exact ⟨hink, hinline, hwritable, hindicator, hmark, hdigit, hascii, hblank⟩

section Numerals

variable {ds : List Char}

theorem plainWord_decimals (h : ∀ c ∈ ds, c ∈ decimals) (hne : ds ≠ []) : PlainWord ds where
  ne_nil := hne
  ink c hc := (decimal_of_mem (h c hc)).ink
  inline c hc := (decimal_of_mem (h c hc)).inline
  writable c hc := (decimal_of_mem (h c hc)).writable
  no_comment hhead := (decimal_of_mem (h _ (List.mem_of_mem_head? hhead))).noMark.1 rfl
  no_key hlast := (decimal_of_mem (h _ (List.mem_of_mem_getLast? hlast))).noMark.2.1 rfl

theorem plainWord_minus (h : PlainWord ds) : PlainWord ('-' :: ds) where
  ne_nil := by simp
  ink := List.forall_mem_cons.mpr ⟨by decide, h.ink⟩
  inline := List.forall_mem_cons.mpr ⟨by decide, h.inline⟩
  writable := List.forall_mem_cons.mpr ⟨by decide, h.writable⟩
  no_comment := by simp
  no_key := by
    rw [List.getLast?_cons_of_ne_nil h.ne_nil]
    exact h.no_key

/-- An integer is written as a word that begins like a plain scalar. -/
theorem plainWord_whole (n : Int) :
    PlainWord (toString n).toList ∧ Scanner.BeginsPlain (toString n).toList := by
  have hword := plainWord_decimals (toDigits_decimals n.natAbs) Nat.toDigits_ne_nil
  rw [toString_whole]
  split
  · refine ⟨hword, fun ch hch => .inl ?_⟩
    exact (decimal_of_mem (toDigits_decimals _ ch (List.mem_of_mem_head? hch))).noIndicator
  · refine ⟨plainWord_minus hword, fun ch hch => .inr ⟨.inl (by simpa using hch.symm), ?_⟩⟩
    obtain ⟨d, ds, hds⟩ := List.exists_cons_of_ne_nil hword.ne_nil
    rw [hds] at hword ⊢
    exact tokenEnds_ink (hword.ink d (by simp))

/-! ## Forms -/

/-- A form that digits lead back to. -/
theorem accepts_stays {p : Pattern} (hp : ∀ c ∈ decimals, p.after c = p)
    (h : ∀ c ∈ ds, c ∈ decimals) : p.accepts ds = p.takesBlank := by
  induction ds with
  | nil => rfl
  | cons c ds ih =>
    have hstep : p.accepts (c :: ds) = (p.after c).accepts ds := rfl
    rw [hstep, hp c (h c (by simp)), ih fun x hx => h x (by simp [hx])]

open Tag (boolForm floatForm intForm)

theorem intForm_stays : ∀ c ∈ decimals, (intForm.after '1').after c = intForm.after '1' := by
  intro c hc
  fin_cases hc <;> rfl

theorem floatForm_stays : ∀ c ∈ decimals, (floatForm.after '1').after c = floatForm.after '1' := by
  intro c hc
  fin_cases hc <;> rfl

theorem forms_first : ∀ c ∈ decimals.tail, intForm.after c = intForm.after '1' ∧
    floatForm.after c = floatForm.after '1' ∧ boolForm.after c = .never := by
  intro c hc
  fin_cases hc <;> exact ⟨rfl, rfl, rfl⟩

theorem accepts_never (cs : List Char) : Pattern.never.accepts cs = false := by
  induction cs with
  | nil => rfl
  | cons c cs ih => exact ih

/-- The digits of a positive number have the form of an integer and no other one in front of it. -/
theorem forms_positive {m : Nat} (hm : 0 < m) :
    intForm.accepts (Nat.toDigits 10 m) = true ∧ floatForm.accepts (Nat.toDigits 10 m) = false ∧
      boolForm.accepts (Nat.toDigits 10 m) = false := by
  obtain ⟨c, ds, hds, hc⟩ := toDigits_cons hm
  have hrest : ∀ c ∈ ds, c ∈ decimals := fun c hc => toDigits_decimals m c (by simp [hds, hc])
  obtain ⟨hint, hfloat, hbool⟩ := forms_first c hc
  have hsteps : ∀ p : Pattern, p.accepts (Nat.toDigits 10 m) = (p.after c).accepts ds := fun p => by
    rw [hds]
    rfl
  rw [hsteps, hsteps, hsteps, hint, hfloat, hbool, accepts_stays intForm_stays hrest,
    accepts_stays floatForm_stays hrest, accepts_never]
  exact ⟨rfl, rfl, rfl⟩

/-- A minus sign changes nothing. -/
theorem forms_negative {m : Nat} (hm : 0 < m) :
    intForm.accepts ('-' :: Nat.toDigits 10 m) = true ∧
      floatForm.accepts ('-' :: Nat.toDigits 10 m) = false ∧
        boolForm.accepts ('-' :: Nat.toDigits 10 m) = false := by
  obtain ⟨c, ds, hds, hc⟩ := toDigits_cons hm
  have hrest : ∀ c ∈ ds, c ∈ decimals := fun c hc => toDigits_decimals m c (by simp [hds, hc])
  have hsign : (intForm.after '-').after c = intForm.after '1' ∧
      (floatForm.after '-').after c = floatForm.after '1' ∧ boolForm.after '-' = .never := by
    fin_cases hc <;> exact ⟨rfl, rfl, rfl⟩
  obtain ⟨hint, hfloat, hbool⟩ := hsign
  have hsteps : ∀ p : Pattern, p.accepts ('-' :: Nat.toDigits 10 m) =
      ((p.after '-').after c).accepts ds := fun p => by
    rw [hds]
    rfl
  rw [hsteps, hsteps, hsteps, hint, hfloat, hbool, accepts_stays intForm_stays hrest,
    accepts_stays floatForm_stays hrest]
  exact ⟨rfl, rfl, accepts_never _⟩

/-- A form counts only as a whole where no line feed stands at the end. -/
theorem hasForm_word {p : Pattern} {w : List Char} (h : PlainWord w) :
    Tag.hasForm p w = p.accepts w := by
  have hlast : w.getLast? ≠ some '\n' := fun hlast =>
    absurd (h.ink _ (List.mem_of_mem_getLast? hlast)) (by decide)
  simp [Tag.hasForm, hlast]

/-- An integer has the form of one. -/
theorem ofPlain_whole (n : Int) : Tag.ofPlain (toString n).toList = .int := by
  by_cases hzero : n = 0
  · subst hzero
    rfl
  have hpos : 0 < n.natAbs := by omega
  have hforms : intForm.accepts (toString n).toList = true ∧
      floatForm.accepts (toString n).toList = false ∧
        boolForm.accepts (toString n).toList = false := by
    rw [toString_whole]
    split
    · exact forms_positive hpos
    · exact forms_negative hpos
  obtain ⟨hint, hfloat, hbool⟩ := hforms
  rw [← hasForm_word (plainWord_whole n).1] at hint hfloat hbool
  simp only [Tag.ofPlain, Tag.forms, List.find?, hint, hfloat, hbool]

/-! ## Values -/

theorem trimBy_none {p : Char → Bool} (h : ∀ c ∈ ds, p c = false) : trimBy p ds = ds := by
  have hdrop : ∀ {l : List Char}, (∀ c ∈ l, p c = false) → l.dropWhile p = l := fun {l} hl => by
    cases l with
    | nil => rfl
    | cons c l => simp [hl c (by simp)]
  rw [trimBy, hdrop h, hdrop fun c hc => h c (List.mem_reverse.mp hc), List.reverse_reverse]

theorem numeralIn_decimals (h : ∀ c ∈ ds, c ∈ decimals) : numeralIn ds = ds := by
  have hmap : ds.map toAscii = ds := by
    rw [List.map_congr_left fun c hc => (decimal_of_mem (h c hc)).ascii, List.map_id']
  rw [numeralIn, hmap, trimBy_none fun c hc => (decimal_of_mem (h c hc)).notBlank]

theorem digitIn_decimal {c : Char} (h : c ∈ decimals) :
    digitIn? 10 c = some (c.toNat - '0'.toNat) := by
  fin_cases h <;> rfl

theorem foldlM_decimals (h : ∀ c ∈ ds, c ∈ decimals) (n : Nat) :
    ds.foldlM (fun n c => (digitIn? 10 c).map (n * 10 + ·)) n =
      some (Nat.ofDigitChars 10 ds n) := by
  induction ds generalizing n with
  | nil => rfl
  | cons c ds ih =>
    have hrest := ih (fun x hx => h x (by simp [hx])) (10 * n + (c.toNat - '0'.toNat))
    simpa [digitIn_decimal (h c (by simp)), Nat.mul_comm n, Nat.ofDigitChars_cons] using hrest

theorem natIn_toDigits (m : Nat) : natIn? 10 (Nat.toDigits 10 m) = some m := by
  have hfold := foldlM_decimals (toDigits_decimals m) 0
  rw [Nat.ofDigitChars_ten_toDigits] at hfold
  rw [natIn?]
  · exact hfold
  · exact Nat.toDigits_ne_nil

theorem underscoresFit_decimals (h : ∀ c ∈ ds, c ∈ decimals) : underscoresFit true ds = true := by
  induction ds with
  | nil => rfl
  | cons c ds ih =>
    have hbar := (decimal_of_mem (h c (by simp))).noMark.2.2.1
    rw [underscoresFit]
    · exact ih fun x hx => h x (by simp [hx])
    · exact fun hc => hbar hc

/-- The digits of a number are read as the number, unless there are too many. -/
theorem integerIn_toDigits {m : Nat} (hm : (Nat.toDigits 10 m).length ≤ Fault.maxDigits) :
    Text.integerIn 10 ((Nat.toDigits 10 m).map Char.toNat) = .ok m := by
  have hall := toDigits_decimals m
  obtain ⟨c, ds, hds⟩ := List.exists_cons_of_ne_nil (@Nat.toDigits_ne_nil m 10)
  have hfirst := (decimal_of_mem (hall c (by simp [hds]))).noMark
  have hchars : ((Nat.toDigits 10 m).map Char.toNat).map charAt = Nat.toDigits 10 m := by
    simp [Function.comp_def]
  have hsign : splitSign (Nat.toDigits 10 m) = (false, Nat.toDigits 10 m) := by
    rw [hds, splitSign]
    · exact fun _ hc => hfirst.2.2.2.1 (List.cons.inj hc).1
    · exact fun _ hc => hfirst.2.2.2.2.1 (List.cons.inj hc).1
  have hmark : ∀ cs, dropBaseMark 10 cs = cs := fun cs => by
    unfold dropBaseMark
    split <;> simp [baseLetters]
  have hrun : (Nat.toDigits 10 m).takeWhile (fun c => c = '_' || (digitIn? 10 c).isSome) =
      Nat.toDigits 10 m :=
    List.takeWhile_eq_self_iff.mpr fun c hc => by simp [digitIn_decimal (hall c hc)]
  have hdigits : (Nat.toDigits 10 m).filter (· ≠ '_') = Nat.toDigits 10 m :=
    List.filter_eq_self.mpr fun c hc => by simp [(decimal_of_mem (hall c hc)).noMark.2.2.1]
  have hfit : underscoresFit false (Nat.toDigits 10 m) = true := by
    rw [hds, underscoresFit]
    · exact underscoresFit_decimals fun x hx => hall x (by simp [hds, hx])
    · exact fun hc => hfirst.2.2.1 hc
  rw [Text.integerIn, hchars, Text.integerOf, numeralIn_decimals hall, hsign]
  simp only [hmark, hrun, hdigits, hfit, natIn_toDigits]
  simp [Nat.not_lt.mpr hm]

theorem filter_bars {cs : List Char} (h : ∀ c ∈ cs, c ≠ '_') :
    (cs.map Char.toNat).filter (· ≠ '_'.toNat) = cs.map Char.toNat := by
  refine List.filter_eq_self.mpr fun n hn => ?_
  obtain ⟨c, hc, rfl⟩ := List.mem_map.mp hn
  have hne : c.toNat ≠ '_'.toNat := fun heq => h c hc (Char.toNat_inj.mp heq)
  simpa using hne

/-- The sign and the digits of an integer. -/
theorem signed_whole (n : Int) : signed (points (toString n)) =
    .ok (decide (n < 0), (Nat.toDigits 10 n.natAbs).map Char.toNat) := by
  have hall := toDigits_decimals n.natAbs
  have hbars : ∀ c ∈ Nat.toDigits 10 n.natAbs, c ≠ '_' := fun c hc =>
    (decimal_of_mem (hall c hc)).noMark.2.2.1
  rw [points, toString_whole]
  split
  · next h =>
    obtain ⟨c, ds, hds⟩ := List.exists_cons_of_ne_nil (@Nat.toDigits_ne_nil n.natAbs 10)
    have hfirst := (decimal_of_mem (hall c (by simp [hds]))).noMark
    have hminus : c.toNat ≠ '-'.toNat := fun heq => hfirst.2.2.2.1 (Char.toNat_inj.mp heq)
    have hplus : c.toNat ≠ '+'.toNat := fun heq => hfirst.2.2.2.2.1 (Char.toNat_inj.mp heq)
    rw [List.nil_append, signed, filter_bars hbars, hds, List.map_cons]
    simp only [hminus, hplus, if_false]
    simp [Int.not_lt.mpr h]
  · next h =>
    rw [List.singleton_append, signed, filter_bars (List.forall_mem_cons.mpr ⟨by decide, hbars⟩),
      List.map_cons]
    simp [Int.not_le.mp h]

theorem split_none {sep : Nat} {ns : List Nat} (h : sep ∉ ns) : split sep ns = [ns] := by
  induction ns with
  | nil => rfl
  | cons n ns ih =>
    obtain ⟨hn, hns⟩ := not_or.mp (List.mem_cons.not.mp h)
    rw [split, if_neg fun heq => hn heq.symm, ih hns]

/-- An integer as it is written is read as the integer, unless there are too many digits. -/
theorem integerOf_whole {n : Int} (hn : (toString n.natAbs).length ≤ Fault.maxDigits) :
    integerOf (points (toString n)) = .ok n := by
  have hlen : (Nat.toDigits 10 n.natAbs).length ≤ Fault.maxDigits := by
    rwa [Nat.toString_eq_ofList_toDigits, String.length_ofList] at hn
  by_cases hzero : n = 0
  · subst hzero
    rfl
  have hpos : 0 < n.natAbs := by omega
  obtain ⟨c, ds, hds, hc⟩ := toDigits_cons hpos
  have hcolon : ':'.toNat ∉ (Nat.toDigits 10 n.natAbs).map Char.toNat := by
    intro hmem
    obtain ⟨d, hd, heq⟩ := List.mem_map.mp hmem
    exact (decimal_of_mem (toDigits_decimals _ d hd)).noMark.2.1 (Char.toNat_inj.mp heq)
  have hparts : (sixtiethsOf ((Nat.toDigits 10 n.natAbs).map Char.toNat)).mapM (Text.integerIn 10) =
      .ok [(n.natAbs : Int)] := by
    rw [sixtiethsOf, split_none hcolon]
    simp [integerIn_toDigits hlen, bind, Except.bind, pure, Except.pure]
  have hfirst : c.toNat ≠ 48 := by
    fin_cases hc <;> decide
  have hbegins : ∀ s : String, s.toList.head? = some '0' →
      ¬ (points s).isPrefixOf ((Nat.toDigits 10 n.natAbs).map Char.toNat) = true := fun s hs => by
    obtain ⟨rest, hrest⟩ := List.head?_eq_some_iff.mp hs
    simp [hds, points, hrest, Ne.symm hfirst]
  have hvalue : (if n < 0 then -((n.natAbs : Int)) else n.natAbs) = n := by
    split <;> omega
  have hother : (Nat.toDigits 10 n.natAbs).map Char.toNat ≠ points "0" := fun heq => by
    simp [hds, points, hfirst] at heq
  rw [integerOf, signed_whole]
  simp only [bind, Except.bind]
  rw [if_neg (by simp [hds]), if_neg hother, if_neg (hbegins "0b" rfl), if_neg (hbegins "0x" rfl),
    if_neg (hbegins "0" rfl), hparts]
  simpa [pure, Except.pure] using hvalue

end Numerals

end RedisGateway.Yaml
