import RedisGateway.Proofs.Yaml.Plain
import RedisGateway.Proofs.Yaml.Quoting

/-!
Writing plain texts. A text that may be written without quotes is a sequence of words with spaces
between them (`plain_runs`), and the lines on which it is written are read as its words with one
space for each gap at which a line was folded (`putPlain_words`): the text itself unless several
spaces stood there (`losesSpaces`).
-/

namespace RedisGateway.Yaml

open Writer (runs isSpaces isSpecial isGap marksInside hasMarks allowsPlain putPlain width Pen)

/-! ## The words of a plain text -/

/-- What neighbours in a plain text look like: no colon in front of a space, no number sign behind
one. -/
def FitNeighbours (a b : Char) : Prop := (b = ' ' → a ≠ ':') ∧ (a = ' ' → b ≠ '#')

theorem isGap_space : isGap (some ' ') = true := by decide

theorem marksInside_spec {before : Char} {cs : List Char} (h : marksInside before cs = false) :
    (cs.IsChain FitNeighbours) ∧ (∀ ch ∈ cs.head?, before = ' ' → ch ≠ '#') ∧
      cs.getLast? ≠ some ':' := by
  induction cs generalizing before with
  | nil => simp
  | cons c cs ih =>
    simp only [marksInside, Bool.or_eq_false_iff, Bool.and_eq_false_iff,
      decide_eq_false_iff_not] at h
    obtain ⟨⟨hcolon, hsign⟩, hrest⟩ := h
    obtain ⟨hchain, hhead, hlast⟩ := ih hrest
    have hfront : ∀ ch ∈ (c :: cs).head?, before = ' ' → ch ≠ '#' := by
      intro ch hch hbefore hch'
      obtain rfl : c = ch := by simpa using hch
      rcases hsign with h | h
      · exact h hch'
      · simp [hbefore, isGap_space] at h
    cases cs with
    | nil =>
      refine ⟨.singleton c, hfront, fun hc => ?_⟩
      rcases hcolon with h | h
      · exact h (by simpa using hc)
      · exact absurd h (by decide)
    | cons d cs =>
      refine ⟨.cons_cons ⟨fun hd hc => ?_, fun hc => hhead d (by simp) hc⟩ hchain, hfront, ?_⟩
      · rcases hcolon with h | h
        · exact h hc
        · simp [hd, isGap_space] at h
      · rwa [List.getLast?_cons_of_ne_nil (by simp)]

/-- What is known of a text that can be written without quotes. -/
structure PlainText (cs : List Char) : Prop where
  ne_nil : cs ≠ []
  begins : ∀ ch ∈ cs.head?, ch ≠ ' ' ∧ ch ≠ '#'
  ends : ∀ ch ∈ cs.getLast?, ch ≠ ' ' ∧ ch ≠ ':'
  fit : cs.IsChain FitNeighbours
  no_break : ∀ ch ∈ cs, isBreak ch = false
  no_special : ∀ ch ∈ cs, isSpecial ch = false

theorem plainText_of_allowsPlain {cs : List Char} (h : allowsPlain cs = true) (hne : cs ≠ []) :
    PlainText cs := by
  simp only [allowsPlain, Bool.and_eq_true, Bool.not_eq_true', List.any_eq_false] at h
  obtain ⟨⟨⟨hends, hbreak⟩, hspecial⟩, hmarks⟩ := h
  obtain ⟨c, rest, rfl⟩ := List.exists_cons_of_ne_nil hne
  simp only [Writer.hasBlankEnds, Bool.or_eq_false_iff] at hends
  simp only [hasMarks, Bool.or_eq_false_iff, Writer.marksAtStart] at hmarks
  obtain ⟨-, ⟨hstart, hsigns⟩, hinside⟩ := hmarks
  obtain ⟨hchain, hhead, hlast⟩ := marksInside_spec hinside
  have hc : c ≠ ' ' := by
    rintro rfl
    simp at hends
  refine ⟨hne, ?_, ?_, ?_, fun ch hch => by simpa using hbreak ch hch,
    fun ch hch => by simpa using hspecial ch hch⟩
  · intro ch hch
    obtain rfl : c = ch := by simpa using hch
    refine ⟨hc, ?_⟩
    rintro rfl
    simp at hstart
  · intro ch hch
    refine ⟨?_, ?_⟩
    · rintro rfl
      rw [Option.mem_def] at hch
      simp [hch] at hends
    · rintro rfl
      cases rest with
      | nil =>
        obtain rfl : c = ':' := by simpa using hch
        exact absurd hsigns (by decide)
      | cons d rest =>
        exact hlast (by rwa [List.getLast?_cons_of_ne_nil (by simp)] at hch)
  · cases rest with
    | nil => exact .singleton c
    | cons d rest =>
      refine .cons_cons ⟨?_, fun h => absurd h hc⟩ hchain
      rintro rfl rfl
      simp [isGap_space] at hsigns

/-- Words with the spaces in front of them, as runs. -/
def spread (gws : List (Nat × List Char)) : List (List Char) :=
  gws.flatMap fun g => [List.replicate (g.1 + 1) ' ', g.2]

/-- A run of spaces, or a word whose characters may stand in a plain scalar. -/
def FitRun (run : List Char) : Prop :=
  IsSpaceRun run ∨ (IsWord run ∧ ∀ ch ∈ run, isInk ch = true ∧ isInline ch = true ∧
    isWritable ch = true)

theorem kindOf_word {ch : Char} (h : ch ≠ ' ' ∧ isBreak ch = false) : kindOf ch = 2 := by
  simp [kindOf, h.1, h.2]

/-- Two words do not follow each other. -/
theorem not_word_word {a b : List Char} (ha : IsWord a) (hb : IsWord b) :
    ¬ ∀ x ∈ a.getLast?, ∀ y ∈ b.head?, kindOf x ≠ kindOf y := fun h => by
  refine h _ (List.getLast?_eq_some_getLast ha.1) _ (List.head?_eq_some_head hb.1) ?_
  rw [kindOf_word (ha.2 _ (List.getLast_mem ha.1)), kindOf_word (hb.2 _ (List.head_mem hb.1))]

theorem not_space_space {a b : List Char} (ha : IsSpaceRun a) (hb : IsSpaceRun b) :
    ¬ ∀ x ∈ a.getLast?, ∀ y ∈ b.head?, kindOf x ≠ kindOf y := fun h => by
  obtain ⟨m, rfl⟩ := ha
  obtain ⟨n, rfl⟩ := hb
  exact h ' ' (by simp [List.getLast?_replicate]) ' ' (by simp [List.replicate_succ]) rfl

theorem FitRun.plainWord {w : List Char} (hfit : FitRun w) (hw : IsWord w)
    (hfirst : w.head? ≠ some '#') (hlast : w.getLast? ≠ some ':') : PlainWord w := by
  rcases hfit with h | ⟨-, h⟩
  · exact absurd h.isSpaces (by simp [hw.isSpaces])
  · exact ⟨hw.1, fun ch hch => (h ch hch).1, fun ch hch => (h ch hch).2.1,
      fun ch hch => (h ch hch).2.2, hfirst, hlast⟩

/-- Runs that begin and end with words are words with spaces between them. -/
theorem runs_alternate {rs : List (List Char)} (hne : rs ≠ []) (hfit : ∀ run ∈ rs, FitRun run)
    (hdiffer : rs.IsChain fun a b => ∀ x ∈ a.getLast?, ∀ y ∈ b.head?, kindOf x ≠ kindOf y)
    (hneighbours : rs.IsChain fun a b => ∀ x ∈ a.getLast?, ∀ y ∈ b.head?, FitNeighbours x y)
    (hfirst : ∀ run ∈ rs.head?, IsWord run ∧ run.head? ≠ some '#')
    (hlast : ∀ run ∈ rs.getLast?, IsWord run ∧ run.getLast? ≠ some ':') :
    ∃ w gws, rs = w :: spread gws ∧ PlainWord w ∧ ∀ g ∈ gws, PlainWord g.2 := by
  match rs with
  | [] => exact absurd rfl hne
  | [w] =>
    have hw := hfirst w (by simp)
    exact ⟨w, [], rfl, (hfit w (by simp)).plainWord hw.1 hw.2 (hlast w (by simp)).2, by simp⟩
  | w :: s :: rest =>
    have hw := hfirst w (by simp)
    obtain ⟨hws, hdiffer₁⟩ := List.isChain_cons_cons.mp hdiffer
    obtain ⟨hwsFit, hneighbours₁⟩ := List.isChain_cons_cons.mp hneighbours
    have hs : IsSpaceRun s := by
      rcases hfit s (by simp) with h | h
      · exact h
      · exact absurd hws (not_word_word hw.1 h.1)
    have hplain : PlainWord w := by
      refine (hfit w (by simp)).plainWord hw.1 hw.2 fun h => ?_
      obtain ⟨n, rfl⟩ := hs
      exact (hwsFit ':' h ' ' (by simp [List.replicate_succ])).1 rfl rfl
    cases rest with
    | nil => exact absurd (hlast s (by simp)).1.isSpaces (by simp [hs.isSpaces])
    | cons v rest =>
      obtain ⟨hsv, hdiffer₂⟩ := List.isChain_cons_cons.mp hdiffer₁
      obtain ⟨hsvFit, hneighbours₂⟩ := List.isChain_cons_cons.mp hneighbours₁
      have hv : IsWord v := by
        rcases hfit v (by simp) with h | h
        · exact absurd hsv (not_space_space hs h)
        · exact h.1
      obtain ⟨n, rfl⟩ := hs
      obtain ⟨v', gws, hrest, hv', hgws⟩ := @runs_alternate (v :: rest) (by simp)
        (fun run hrun => hfit run (by simp at hrun ⊢; tauto)) hdiffer₂ hneighbours₂
        (fun run hrun => by
          obtain rfl : v = run := by simpa using hrun
          exact ⟨hv, fun h => (hsvFit ' ' (by simp [List.getLast?_replicate]) '#' h).2 rfl rfl⟩)
        (fun run hrun => hlast run (by simpa using hrun))
      refine ⟨w, (n, v') :: gws, by simp [spread, hrest], hplain, fun g hg => ?_⟩
      rcases List.mem_cons.mp hg with rfl | hg
      · exact hv'
      · exact hgws g hg
termination_by rs.length

/-- A plain text is a sequence of words with spaces between them. -/
theorem plain_runs {cs : List Char} (h : PlainText cs) :
    ∃ w gws, runs cs = w :: spread gws ∧ PlainWord w ∧ ∀ g ∈ gws, PlainWord g.2 := by
  have hmem : ∀ run ∈ runs cs, ∀ ch ∈ run, ch ∈ cs := fun run hrun ch hch => by
    rw [← runs_flatten cs]
    exact List.mem_flatten_of_mem hrun hch
  have hfit : ∀ run ∈ runs cs, FitRun run := fun run hrun => by
    rcases run_cases hrun with h' | h' | h'
    · exact .inl h'
    · obtain ⟨br, brs, rfl⟩ := List.exists_cons_of_ne_nil h'.1
      have := h.no_break br (hmem _ hrun br (by simp))
      simp [h'.2 br] at this
    · refine .inr ⟨h', fun ch hch => ?_⟩
      have hspecial := h.no_special ch (hmem _ hrun ch hch)
      have hbom : ch ≠ byteOrderMark := by
        rintro rfl
        exact absurd hspecial (by decide)
      exact ⟨ink_of_not_special hspecial (h'.2 ch hch).1 (h'.2 ch hch).2,
        by simp [isInline, (h'.2 ch hch).2, hbom], writable_of_not_special hspecial⟩
  have hne : runs cs ≠ [] := fun hnil => h.ne_nil (by rw [← runs_flatten cs, hnil]; rfl)
  refine runs_alternate hne hfit (runs_differ cs) (runs_isChain h.fit) (fun run hrun => ?_)
    (fun run hrun => ?_)
  · have hhead : run.head? = cs.head? := by
      obtain ⟨rest, hrs⟩ := List.head?_eq_some_iff.mp hrun
      rw [← runs_flatten cs, hrs, List.flatten_cons, List.head?_append_of_ne_nil]
      exact fun hnil => nil_notMem_runs cs (by simp [hrs, hnil])
    rw [hhead]
    refine ⟨?_, fun h' => (h.begins _ h').2 rfl⟩
    rcases hfit run (List.mem_of_mem_head? hrun) with ⟨n, rfl⟩ | h'
    · exact absurd rfl (h.begins ' ' (by rw [← hhead]; simp [List.replicate_succ])).1
    · exact h'.1
  · have hlast : run.getLast? = cs.getLast? := by
      obtain ⟨front, hrs⟩ := List.getLast?_eq_some_iff.mp hrun
      rw [← runs_flatten cs, hrs, List.flatten_append, List.flatten_cons, List.flatten_nil,
        List.append_nil, List.getLast?_append_of_ne_nil]
      exact fun hnil => nil_notMem_runs cs (by simp [hrs, hnil])
    rw [hlast]
    refine ⟨?_, fun h' => (h.ends _ h').2 rfl⟩
    rcases hfit run (List.mem_of_mem_getLast? hrun) with ⟨n, rfl⟩ | h'
    · exact absurd rfl (h.ends ' ' (by rw [← hlast]; simp [List.getLast?_replicate])).1
    · exact h'.1

/-! ## Writing -/

/-- A word begins a new line. -/
def breaksBefore (indent : Nat) (p : Pen) (w : List Char) : Bool :=
  width < p.column + w.length && indent < p.column

/-- Several spaces stand at the end of a line, because the word behind them begins a new one: they
are read as one. -/
def losesSpaces (indent : Nat) (p : Pen) : List (List Char) → Bool
  | [] => false
  | run :: rest =>
    let behind := putPlain indent p [run]
    (isSpaces run && 1 < run.length && rest.head?.any (breaksBefore indent behind)) ||
      losesSpaces indent behind rest

section Writing

variable {indent : Nat} {p : Pen}

theorem putPlain_cons (run : List Char) (rest : List (List Char)) :
    putPlain indent p (run :: rest) = putPlain indent (putPlain indent p [run]) rest := rfl

theorem putPlain_word {w : List Char} (hw : isSpaces w = false) :
    putPlain indent p [w] =
      if breaksBefore indent p w then (p.newLine indent).put w else p.put w := by
  simp [putPlain, hw, breaksBefore]

theorem putPlain_spaces (n : Nat) :
    putPlain indent p [List.replicate (n + 1) ' '] =
      if n = 0 ∧ width ≤ p.column then p.newLine indent
      else p.put (List.replicate (n + 1) ' ') := by
  have hsp : isSpaces (List.replicate (n + 1) ' ') = true := by
    simp [Writer.isSpaces, List.replicate_succ]
  simp [putPlain, hsp]

/-- The spaces in front of a word and the word, as they are written. -/
theorem putPlain_pair (n : Nat) {w : List Char} (hw : isSpaces w = false) :
    ∃ g : Gap, g.Parts ∧
      (putPlain indent p [List.replicate (n + 1) ' ', w]).written =
        (g.written indent ++ w).reverse ++ p.written ∧
      (losesSpaces indent p [List.replicate (n + 1) ' ', w] = false →
        g.content = List.replicate (n + 1) ' ') ∧
      (losesSpaces indent p [List.replicate (n + 1) ' ', w] = true →
        g.content.length < n + 1) := by
  have hsp : isSpaces (List.replicate (n + 1) ' ') = true := by
    simp [Writer.isSpaces, List.replicate_succ]
  have hloses : losesSpaces indent p [List.replicate (n + 1) ' ', w] = (decide (1 < n + 1) &&
      breaksBefore indent (putPlain indent p [List.replicate (n + 1) ' ']) w) := by
    simp [losesSpaces, hsp, hw]
  rw [hloses, putPlain_cons, putPlain_word hw, putPlain_spaces]
  by_cases hone : n = 0 ∧ width ≤ p.column
  · -- the line break stands for the space
    have hno : breaksBefore indent (p.newLine indent) w = false := by simp [breaksBefore]
    obtain ⟨rfl, hwide⟩ := hone
    refine ⟨⟨0, true⟩, .inl rfl, ?_, ?_, ?_⟩
    · simp [hwide, hno, Gap.written]
    · simp [Gap.content]
    · simp
  · rw [if_neg hone]
    by_cases hbreaks : breaksBefore indent (p.put (List.replicate (n + 1) ' ')) w = true
    · refine ⟨⟨n + 1, true⟩, .inl rfl, ?_, ?_, ?_⟩
      · rw [if_pos hbreaks]
        simp [Gap.written]
      · intro h
        have hn : n = 0 := by simpa [hbreaks] using h
        simp [Gap.content, hn]
      · intro h
        have hn : 0 < n := by simpa [hbreaks] using h
        simp [Gap.content]
        omega
    · refine ⟨⟨n + 1, false⟩, .inr (by simp), ?_, ?_, ?_⟩
      · rw [if_neg hbreaks]
        simp [Gap.written]
      · simp [Gap.content]
      · simp [hbreaks]

theorem losesSpaces_pair {sp w : List Char} (hw : isSpaces w = false) (rest : List (List Char)) :
    losesSpaces indent p (sp :: w :: rest) =
      (losesSpaces indent p [sp, w] || losesSpaces indent (putPlain indent p [sp, w]) rest) := by
  rw [putPlain_cons sp [w]]
  simp [losesSpaces, hw]

/-- Words with spaces in front of them, as they are written. -/
theorem putPlain_spread (gws : List (Nat × List Char)) (hgws : ∀ g ∈ gws, isSpaces g.2 = false) :
    ∃ gs : List (Gap × List Char), (∀ g ∈ gs, g.1.Parts) ∧
      gs.map Prod.snd = gws.map Prod.snd ∧
      (putPlain indent p (spread gws)).written = (wordsWritten indent gs).reverse ++ p.written ∧
      (losesSpaces indent p (spread gws) = false → wordsContent gs = (spread gws).flatten) ∧
      (wordsContent gs).length + (losesSpaces indent p (spread gws)).toNat ≤
        (spread gws).flatten.length := by
  induction gws generalizing p with
  | nil => exact ⟨[], by simp, rfl, rfl, fun _ => rfl, by simp [spread, losesSpaces, wordsContent]⟩
  | cons g gws ih =>
    obtain ⟨n, w⟩ := g
    have hw : isSpaces w = false := hgws (n, w) (by simp)
    obtain ⟨g, hparts, hwritten, hkept, hlost⟩ := @putPlain_pair indent p n w hw
    obtain ⟨gs, hgs, hmap, hwrittens, hkepts, hlosts⟩ :=
      @ih (putPlain indent p [List.replicate (n + 1) ' ', w]) fun g hg => hgws g (by simp [hg])
    have hspread : spread ((n, w) :: gws) = List.replicate (n + 1) ' ' :: w :: spread gws := rfl
    have hwords : wordsContent ((g, w) :: gs) = g.content ++ w ++ wordsContent gs := by
      simp [wordsContent]
    refine ⟨(g, w) :: gs, ?_, by simp [hmap], ?_, ?_, ?_⟩
    · intro x hx
      rcases List.mem_cons.mp hx with rfl | hx
      · exact hparts
      · exact hgs x hx
    · rw [hspread, putPlain_cons, putPlain_cons]
      rw [putPlain_cons] at hwritten hwrittens
      rw [hwrittens, hwritten]
      simp [wordsWritten]
    · rw [hspread, losesSpaces_pair hw, Bool.or_eq_false_iff]
      intro h
      rw [hwords, hkept h.1, hkepts h.2]
      simp
    · rw [hspread, losesSpaces_pair hw, hwords]
      have hle : g.content.length + (losesSpaces indent p [List.replicate (n + 1) ' ', w]).toNat ≤
          n + 1 := by
        cases hl : losesSpaces indent p [List.replicate (n + 1) ' ', w] with
        | false => simp [hkept hl]
        | true =>
          have := hlost hl
          simp
          omega
      generalize losesSpaces indent p [List.replicate (n + 1) ' ', w] = here at hle ⊢
      generalize losesSpaces indent (putPlain indent p [List.replicate (n + 1) ' ', w])
        (spread gws) = later at hlosts ⊢
      have hor : (here || later).toNat ≤ here.toNat + later.toNat := by
        cases here <;> cases later <;> decide
      simp only [List.length_append, List.flatten_cons, List.length_replicate]
      omega

/-- A plain text as it is written: its words, the first of which may begin a new line. They are read
as the text unless spaces are lost. -/
theorem putPlain_words {cs : List Char} (h : PlainText cs) :
    ∃ (moved : Bool) (w : List Char) (gs : List (Gap × List Char)), PlainWord w ∧
      (∀ g ∈ gs, g.1.Parts ∧ PlainWord g.2) ∧ (∃ r, cs = w ++ r ∧ ∀ ch ∈ r.head?, ch = ' ') ∧
      (putPlain indent p (runs cs)).written =
        ((if moved then '\n' :: List.replicate indent ' ' else []) ++ w ++
          wordsWritten indent gs).reverse ++ p.written ∧
      (w ++ wordsContent gs = cs ↔ losesSpaces indent p (runs cs) = false) := by
  obtain ⟨w, gws, hruns, hw, hgws⟩ := plain_runs h
  have hspaces : ∀ {v : List Char}, PlainWord v → isSpaces v = false := fun {v} hv => by
    obtain ⟨ch, rest, rfl⟩ := List.exists_cons_of_ne_nil hv.ne_nil
    simp [Writer.isSpaces, ne_space_of_ink (hv.ink ch (by simp))]
  obtain ⟨gs, hgs, hmap, hwritten, hkept, hlost⟩ :=
    @putPlain_spread indent (putPlain indent p [w]) gws fun g hg => hspaces (hgws g hg)
  have hflat : cs = w ++ (spread gws).flatten := by
    rw [← runs_flatten cs, hruns, List.flatten_cons]
  have hloses : losesSpaces indent p (runs cs) =
      losesSpaces indent (putPlain indent p [w]) (spread gws) := by
    simp [hruns, losesSpaces, hspaces hw]
  have hbehind : ∀ ch ∈ (spread gws).flatten.head?, ch = ' ' := by
    cases gws with
    | nil => simp [spread]
    | cons g gws => simp [spread, List.replicate_succ]
  refine ⟨breaksBefore indent p w, w, gs, hw, fun g hg => ⟨hgs g hg, ?_⟩, ⟨_, hflat, hbehind⟩,
    ?_, ?_⟩
  · have : g.2 ∈ gws.map Prod.snd := hmap ▸ List.mem_map_of_mem hg
    obtain ⟨g', hg', hsame⟩ := List.mem_map.mp this
    exact hsame ▸ hgws g' hg'
  · rw [hruns, putPlain_cons, hwritten, putPlain_word (hspaces hw)]
    cases breaksBefore indent p w <;> simp
  · rw [hloses]
    constructor
    · intro hsame
      rw [hflat, List.append_cancel_left_eq] at hsame
      rw [hsame] at hlost
      cases hl : losesSpaces indent (putPlain indent p [w]) (spread gws) with
      | false => rfl
      | true =>
        rw [hl, Bool.toNat_true] at hlost
        omega
    · intro hl
      rw [hkept hl, ← hflat]

end Writing

end RedisGateway.Yaml
