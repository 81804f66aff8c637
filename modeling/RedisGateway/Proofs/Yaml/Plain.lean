import RedisGateway.Proofs.Yaml.Cursor
import RedisGateway.Yaml.Scalar

/-!
Plain scalars as they are written, beside what they are read as: words with gaps between them, where
a gap that is folded counts as one space however many stand in it (`scanPlain_words`).
-/

namespace RedisGateway.Yaml

/-- A word of a plain scalar: it neither begins like a comment nor ends like a key. -/
structure PlainWord (w : List Char) : Prop where
  ne_nil : w ≠ []
  ink : ∀ ch ∈ w, isInk ch = true
  inline : ∀ ch ∈ w, isInline ch = true
  writable : ∀ ch ∈ w, isWritable ch = true
  no_comment : w.head? ≠ some '#'
  no_key : w.getLast? ≠ some ':'

/-- Blanks between two words: spaces, and the end of the line if the next word begins a new one. -/
structure Gap where
  spaces : Nat
  folded : Bool

namespace Gap

/-- A gap as it is written. -/
def written (indent : Nat) (g : Gap) : List Char :=
  List.replicate g.spaces ' ' ++ if g.folded then '\n' :: List.replicate indent ' ' else []

/-- What a gap is read as. -/
def content (g : Gap) : List Char := if g.folded then [' '] else List.replicate g.spaces ' '

/-- There is something between the words. -/
def Parts (g : Gap) : Prop := g.folded = true ∨ 0 < g.spaces

theorem content_ne_nil {g : Gap} (h : g.Parts) : g.content ≠ [] := by
  unfold content
  split
  · simp
  · rcases h with h | h
    · contradiction
    · simp; omega

end Gap

/-- Words with the gaps in front of them, as they are written. -/
def wordsWritten (indent : Nat) (gws : List (Gap × List Char)) : List Char :=
  gws.flatMap fun g => g.1.written indent ++ g.2

/-- Words with the gaps in front of them, as they are read. -/
def wordsContent (gws : List (Gap × List Char)) : List Char :=
  gws.flatMap fun g => g.1.content ++ g.2

/-- Words with gaps between them may stand in a document. -/
theorem wordsWritten_writable {indent : Nat} {gws : List (Gap × List Char)}
    (h : ∀ g ∈ gws, PlainWord g.2) : ∀ ch ∈ wordsWritten indent gws, isWritable ch = true := by
  have hspaces : ∀ n, ∀ ch ∈ List.replicate n ' ', isWritable ch = true :=
    Cursor.forall_mem_spaces (by decide)
  intro ch hch
  obtain ⟨g, hg, hch⟩ := List.mem_flatMap.mp hch
  rcases List.mem_append.mp hch with hgap | hword
  · rcases List.mem_append.mp hgap with hspace | hline
    · exact hspaces _ ch hspace
    · split at hline
      · rcases List.mem_cons.mp hline with rfl | hspace
        · decide
        · exact hspaces _ ch hspace
      · exact nomatch hline
  · exact (h g hg).writable ch hword

/-! ## Words -/

theorem tokenEnds_ink {ch : Char} (h : isInk ch = true) : Cursor.tokenEnds (some ch) = false := by
  simp [Cursor.tokenEnds, Cursor.endsOr, not_blank_of_ink h, not_break_of_ink h]

theorem plainWord_end {r : List Char} (h : Cursor.tokenEnds r.head? = true) :
    plainWord false r = [] := by
  cases r with
  | nil => rfl
  | cons ch r =>
    have : (isSpaceOrTab ch || isBreak ch) = true := by
      simpa [Cursor.tokenEnds, Cursor.endsOr] using h
    rw [plainWord, if_pos this]

theorem plainWord_colon {r : List Char} (h : Cursor.tokenEnds r.head? = true) :
    plainWord false (':' :: r) = [] := by
  simp [plainWord, show isSpaceOrTab ':' = false from rfl, show isBreak ':' = false from rfl, h]

/-- A word goes on over a character that no blank follows. -/
theorem plainWord_cons {ch : Char} {r : List Char} (hink : isInk ch = true)
    (h : ch = ':' → Cursor.tokenEnds r.head? = false) :
    plainWord false (ch :: r) = ch :: plainWord false r := by
  have hno : ¬ (ch = ':' ∧ Cursor.tokenEnds r.head? = true) := fun ⟨hc, ht⟩ => by
    simp [h hc] at ht
  simp [plainWord, not_blank_of_ink hink, not_break_of_ink hink, hno]

theorem plainWord_append {w r : List Char} (hink : ∀ ch ∈ w, isInk ch = true)
    (hr : w ≠ [] → w.getLast? = some ':' → Cursor.tokenEnds r.head? = false)
    (hend : plainWord false r = []) : plainWord false (w ++ r) = w := by
  induction w with
  | nil => exact hend
  | cons ch w ih =>
    rw [List.cons_append, plainWord_cons (hink ch (by simp))]
    · rw [ih (fun x hx => hink x (by simp [hx]))]
      intro hne hlast
      exact hr (by simp) (by rw [List.getLast?_cons_of_ne_nil hne, hlast])
    · intro hc
      cases w with
      | nil => exact hr (by simp) (by simp [hc])
      | cons x w => exact tokenEnds_ink (hink x (by simp))

namespace PlainWord

variable {w r : List Char}

/-- A word ends in front of a blank. -/
theorem ends (h : PlainWord w) (hr : Cursor.tokenEnds r.head? = true) :
    plainWord false (w ++ r) = w :=
  plainWord_append h.ink (fun _ hlast => absurd hlast h.no_key) (plainWord_end hr)

/-- A word ends in front of a colon that a blank follows. -/
theorem ends_key (h : PlainWord w) (hr : Cursor.tokenEnds r.head? = true) :
    plainWord false (w ++ ':' :: r) = w :=
  plainWord_append h.ink (fun _ hlast => absurd hlast h.no_key) (plainWord_colon hr)

theorem inkOrEnd (h : PlainWord w) : InkOrEnd (w ++ r) := by
  obtain ⟨ch, cs, rfl⟩ := List.exists_cons_of_ne_nil h.ne_nil
  exact inkOrEnd_cons.mpr (h.ink ch (by simp))

theorem no_comment_ahead (h : PlainWord w) {c : Cursor} (hc : c.rest = w ++ r) :
    c.peek ≠ some '#' := by
  obtain ⟨ch, cs, rfl⟩ := List.exists_cons_of_ne_nil h.ne_nil
  simpa [Cursor.peek, hc] using h.no_comment

end PlainWord

/-! ## Gaps -/

theorem scanPlainBreaks_spaces {c : Cursor} {n fuel : Nat} {r : List Char}
    (hc : c.rest = List.replicate n ' ' ++ r) (hr : InkOrEnd r) (hfuel : n < fuel) :
    scanPlainBreaks fuel c = some ([], c.past n r) := by
  induction n generalizing c fuel with
  | zero =>
    obtain ⟨fuel, rfl⟩ : ∃ f, fuel = f + 1 := ⟨fuel - 1, by omega⟩
    have hc : c.rest = r := by simpa using hc
    have hsp : c.peek ≠ some ' ' := fun h => by
      rw [Cursor.peek, hc] at h
      exact absurd (hr ' ' (by simp [h])) (by decide)
    rw [scanPlainBreaks, if_neg hsp, Cursor.lineBreak?_of_ink (hc ▸ hr), Cursor.past_zero hc]
  | succ n ih =>
    obtain ⟨fuel, rfl⟩ : ∃ f, fuel = f + 1 := ⟨fuel - 1, by omega⟩
    have hc : c.rest = ' ' :: (List.replicate n ' ' ++ r) := by
      simpa [List.replicate_succ] using hc
    rw [scanPlainBreaks, if_pos (by simp [Cursor.peek, hc]),
      Cursor.step_inline hc Cursor.isInline_space, ih rfl (by omega), Cursor.past_past,
      Nat.add_comm 1]

/-- A gap on one line. -/
theorem scanPlainGap_inline {c : Cursor} {n : Nat} {r : List Char}
    (hc : c.rest = List.replicate n ' ' ++ r) (hr : InkOrEnd r) :
    scanPlainGap c = ⟨List.replicate n ' ', c.past n r, false⟩ := by
  simp only [scanPlainGap, Cursor.run_spaces hc (by decide) hr.not_space,
    Cursor.lineBreak?_of_ink (show InkOrEnd (c.past n r).rest from hr)]

/-- Where the next line begins. -/
def Cursor.nextLine (c : Cursor) (n j : Nat) (r : List Char) : Cursor :=
  ((c.past n ('\n' :: (List.replicate j ' ' ++ r))).below (List.replicate j ' ' ++ r)).past j r

/-- A gap that goes on to the next line counts as one space. -/
theorem scanPlainGap_folded {c : Cursor} {n j : Nat} {r : List Char}
    (hc : c.rest = List.replicate n ' ' ++ '\n' :: (List.replicate j ' ' ++ r)) (hr : InkOrEnd r)
    (hmarker : j = 0 → ∀ ch ∈ r.head?, ch ≠ '-' ∧ ch ≠ '.') :
    scanPlainGap c = ⟨[' '], c.nextLine n j r, true⟩ := by
  have hspaces := Cursor.run_spaces hc (p := (· = ' ')) (by decide) (by simp)
  have hbr := @Cursor.lineBreak?_of_break (c.past n ('\n' :: (List.replicate j ' ' ++ r))) '\n'
    (List.replicate j ' ' ++ r) rfl (by decide)
  have hno : ((c.past n ('\n' :: (List.replicate j ' ' ++ r))).below
      (List.replicate j ' ' ++ r)).atDocumentMarker = false := by
    have hhead : ∀ ch ∈ (List.replicate j ' ' ++ r).head?, ch ≠ '-' ∧ ch ≠ '.' := by
      cases j with
      | zero => simpa using hmarker rfl
      | succ j => simp [List.replicate_succ]
    apply Cursor.not_atDocumentMarker
    · exact fun h => (hhead _ h).1 rfl
    · exact fun h => (hhead _ h).2 rfl
  have hbreaks := @scanPlainBreaks_spaces
    ((c.past n ('\n' :: (List.replicate j ' ' ++ r))).below (List.replicate j ' ' ++ r)) j
    ((List.replicate j ' ' ++ r).length + 1) r rfl hr
    (by rw [List.length_append, List.length_replicate]; omega)
  simp only [scanPlainGap, hspaces, hbr, hno, Cursor.below_rest, hbreaks]
  rfl

theorem scanPlainGap_written {c : Cursor} {g : Gap} {indent : Nat} {r : List Char} {column : Int}
    (hc : c.rest = g.written indent ++ r) (hindent : 0 < indent) (hcolumn : column ≤ indent)
    (hle : column ≤ c.column) (hr : InkOrEnd r) :
    ∃ c', scanPlainGap c = ⟨g.content, c', g.folded⟩ ∧ c'.rest = r ∧ column ≤ c'.column ∧
      c.line ≤ c'.line := by
  obtain ⟨n, folded⟩ := g
  cases folded with
  | false =>
    have hc : c.rest = List.replicate n ' ' ++ r := by simpa [Gap.written] using hc
    exact ⟨c.past n r, scanPlainGap_inline hc hr, rfl, by simp; omega, by simp⟩
  | true =>
    have hc : c.rest = List.replicate n ' ' ++ '\n' :: (List.replicate indent ' ' ++ r) := by
      simpa [Gap.written] using hc
    exact ⟨c.nextLine n indent r, scanPlainGap_folded hc hr (by omega), rfl,
      by simp [Cursor.nextLine]; omega, by simp [Cursor.nextLine]⟩

/-! ## Scalars -/

section Scanning

variable {c : Cursor} {fuel : Nat} {gap w r : List Char} {column : Int}

/-- A word behind which the scalar ends. -/
theorem scanPlain_last {next : PlainGap} (hw : PlainWord w)
    (hword : plainWord false c.rest = w) (hc : c.rest = w ++ r)
    (hnext : scanPlainGap (c.past w.length r) = next)
    (hend : next.blanks = [] ∨ (next.cursor.column : Int) < column) :
    scanPlain false column (fuel + 1) gap c = (gap ++ w, next.broken, next.cursor) := by
  have hsteps : c.steps w.length = c.past w.length r := Cursor.steps_inline hc hw.inline
  have hstop : (next.blanks.isEmpty || next.cursor.peek = some '#' ||
      (!false && (next.cursor.column : Int) < column)) = true := by
    rcases hend with h | h <;> simp [h]
  rw [scanPlain]
  simp only [if_neg (hw.no_comment_ahead hc), hword, List.isEmpty_iff, hw.ne_nil, if_false, hsteps,
    hnext]
  exact if_pos hstop

/-- A word behind which the scalar goes on. -/
theorem scanPlain_more {g : Gap} {c₁ c' : Cursor} {more : List Char} (hw : PlainWord w)
    (hword : plainWord false c.rest = w) (hc : c.rest = w ++ r)
    (hnext : scanPlainGap (c.past w.length r) = ⟨g.content, c₁, g.folded⟩) (hparts : g.Parts)
    (hpeek : c₁.peek ≠ some '#') (hcolumn : column ≤ c₁.column) (hmore : more ≠ [])
    (hrest : scanPlain false column fuel g.content c₁ = (more, true, c')) :
    scanPlain false column (fuel + 1) gap c = (gap ++ w ++ more, true, c') := by
  have hsteps : c.steps w.length = c.past w.length r := Cursor.steps_inline hc hw.inline
  rw [scanPlain]
  simp only [if_neg (hw.no_comment_ahead hc), hword, List.isEmpty_iff, hw.ne_nil, if_false, hsteps,
    hnext]
  rw [if_neg]
  · simp [hrest, hmore]
  · simp [Gap.content_ne_nil hparts, hpeek, Int.not_lt.mpr hcolumn]

theorem tokenEnds_break (r : List Char) : Cursor.tokenEnds ('\n' :: r).head? = true := rfl

theorem tokenEnds_gap {g : Gap} (h : g.Parts) (indent : Nat) (r : List Char) :
    Cursor.tokenEnds (g.written indent ++ r).head? = true := by
  obtain ⟨n, folded⟩ := g
  cases n with
  | succ n => simp [Gap.written, List.replicate_succ]; decide
  | zero =>
    rcases h with h | h
    · obtain rfl : folded = true := h
      simp [Gap.written]; decide
    · exact absurd h (by simp)

/-- The words of a plain scalar up to the end of its last line, behind which a line begins that is
indented less. -/
theorem scanPlain_words {indent j : Nat} {gws : List (Gap × List Char)} (hw : PlainWord w)
    (hgws : ∀ g ∈ gws, g.1.Parts ∧ PlainWord g.2) (hindent : 0 < indent) (hcolumn : column ≤ indent)
    (hj : (j : Int) < column) (hr : InkOrEnd r)
    (hmarker : j = 0 → ∀ ch ∈ r.head?, ch ≠ '-' ∧ ch ≠ '.') (hle : column ≤ c.column)
    (hfuel : gws.length < fuel)
    (hc : c.rest = w ++ (wordsWritten indent gws ++ '\n' :: (List.replicate j ' ' ++ r))) :
    ∃ c', scanPlain false column fuel gap c = (gap ++ w ++ wordsContent gws, true, c') ∧
      c'.rest = r ∧ c'.column = j ∧ c.line < c'.line := by
  obtain ⟨fuel, rfl⟩ : ∃ f, fuel = f + 1 := ⟨fuel - 1, by omega⟩
  induction gws generalizing w c fuel gap with
  | nil =>
    have hc : c.rest = w ++ '\n' :: (List.replicate j ' ' ++ r) := hc
    have hnext := @scanPlainGap_folded (c.past w.length ('\n' :: (List.replicate j ' ' ++ r))) 0 j r
      rfl hr hmarker
    refine ⟨(c.past w.length ('\n' :: (List.replicate j ' ' ++ r))).nextLine 0 j r, ?_, rfl, ?_, ?_⟩
    · rw [scanPlain_last hw (hc ▸ hw.ends (tokenEnds_break _)) hc hnext
        (.inr (by simpa [Cursor.nextLine] using hj))]
      simp [wordsContent]
    all_goals simp [Cursor.nextLine]
  | cons g gws ih =>
    obtain ⟨g, v⟩ := g
    obtain ⟨fuel, rfl⟩ : ∃ f, fuel = f + 1 := ⟨fuel - 1, by simp at hfuel; omega⟩
    have hg := hgws (g, v) (by simp)
    have hc : c.rest = w ++ (g.written indent ++ (v ++
        (wordsWritten indent gws ++ '\n' :: (List.replicate j ' ' ++ r)))) := by
      simpa [wordsWritten] using hc
    have hend := tokenEnds_gap hg.1 indent
      (v ++ (wordsWritten indent gws ++ '\n' :: (List.replicate j ' ' ++ r)))
    obtain ⟨c₁, hnext, hrest₁, hcolumn₁, hline₁⟩ := @scanPlainGap_written
      (c.past w.length (g.written indent ++ (v ++
        (wordsWritten indent gws ++ '\n' :: (List.replicate j ' ' ++ r))))) g indent _ column rfl
      hindent hcolumn (by simp; omega) hg.2.inkOrEnd
    obtain ⟨c', hscan, hrest, hcol, hline⟩ := @ih c₁ g.content v hg.2
      (fun x hx => hgws x (by simp [hx])) hcolumn₁ hrest₁ fuel (by simp at hfuel; omega)
    refine ⟨c', ?_, hrest, hcol, by simp at hline₁; omega⟩
    rw [scanPlain_more hw (hc ▸ hw.ends hend) hc hnext hg.1 (hg.2.no_comment_ahead hrest₁)
      hcolumn₁ (by simp [hg.2.ne_nil]) hscan]
    simp [wordsContent]

/-- A word in front of a colon that a blank follows. -/
theorem scanPlain_key (hw : PlainWord w) (hr : Cursor.tokenEnds r.head? = true)
    (hc : c.rest = w ++ ':' :: r) :
    scanPlain false column (fuel + 1) [] c = (w, false, c.past w.length (':' :: r)) := by
  have hnext : scanPlainGap (c.past w.length (':' :: r)) =
      ⟨[], c.past w.length (':' :: r), false⟩ := by
    have h := @scanPlainGap_inline (c.past w.length (':' :: r)) 0 (':' :: r) rfl
      (inkOrEnd_cons.mpr (by decide))
    rwa [Cursor.past_past] at h
  rw [scanPlain_last hw (hc ▸ hw.ends_key hr) hc hnext (.inl rfl)]
  rfl

end Scanning

end RedisGateway.Yaml
