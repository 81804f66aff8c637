import RedisGateway.Proofs.Yaml.Plain
import RedisGateway.Proofs.Yaml.Quoted
import RedisGateway.Yaml.Token

/-!
Single steps of a scanner outside brackets: going to the next token, ending blocks, and taking a
key, its colon and the scalar behind it.
-/

namespace RedisGateway.Yaml

namespace Scanner

/-! ## Going to the next token -/

theorem skipComment_of_ink {c : Cursor} (h : c.peek ≠ some '#') : c.skipComment = c := by
  rw [Cursor.skipComment, if_neg h]

/-- Spaces in front of a token. -/
theorem skipBlanks_inline {s : Scanner} {n fuel : Nat} {r : List Char}
    (hc : s.cursor.rest = List.replicate n ' ' ++ r) (hr : InkOrEnd r)
    (hsign : r.head? ≠ some '#') :
    s.skipBlanks (fuel + 1) = { s with cursor := s.cursor.past n r } := by
  have hskip : s.cursor.skipSpaces.skipComment = s.cursor.past n r := by
    rw [Cursor.skipSpaces, Cursor.skip_spaces hc (by decide) hr.not_space]
    exact skipComment_of_ink hsign
  have hink : InkOrEnd (s.cursor.past n r).rest := hr
  simp only [skipBlanks, hskip, Cursor.lineBreak?_of_ink hink]

/-- Spaces, the end of a line, and the indentation of the next one. -/
theorem skipBlanks_nextLine {s : Scanner} {n j fuel : Nat} {r : List Char} (hflow : s.flow = 0)
    (hc : s.cursor.rest = List.replicate n ' ' ++ '\n' :: (List.replicate j ' ' ++ r))
    (hr : InkOrEnd r) (hsign : r.head? ≠ some '#') :
    s.skipBlanks (fuel + 2) =
      { s with cursor := s.cursor.nextLine n j r, keyAllowed := true } := by
  have hskip : s.cursor.skipSpaces.skipComment =
      s.cursor.past n ('\n' :: (List.replicate j ' ' ++ r)) := by
    rw [Cursor.skipSpaces, Cursor.skip_spaces hc (by decide) (by simp)]
    exact skipComment_of_ink (by simp [Cursor.peek])
  have hbr := @Cursor.lineBreak?_of_break (s.cursor.past n ('\n' :: (List.replicate j ' ' ++ r)))
    '\n' (List.replicate j ' ' ++ r) rfl (by decide)
  have hflow' : (s.keyAllowed || !s.inFlow) = true := by simp [inFlow, hflow]
  rw [skipBlanks]
  simp only [hskip, hbr, hflow']
  rw [skipBlanks_inline (by simp; rfl) hr hsign]
  rfl

theorem toNextToken_eq {s : Scanner} (h : s.cursor.peek ≠ some byteOrderMark) :
    s.toNextToken = s.skipBlanks (s.cursor.rest.length + 1) := by
  simp [toNextToken, h]

/-- The column of the innermost block once those that are indented further than a column have ended,
the columns around it, and the tokens that end them. -/
def unwound (column : Int) : Int → List Int → List Token × Int × List Int
  | i, [] => ([], i, [])
  | i, j :: js =>
    if i ≤ column then ([], i, j :: js)
    else
      let (ends, rest) := unwound column j js
      (.blockEnd :: ends, rest)

theorem unwind_eq {s : Scanner} (column : Int) (hflow : s.flow = 0) :
    s.unwindTo column =
      { s with
        tokens := s.tokens ++ (unwound column s.indent s.indents).1
        indent := (unwound column s.indent s.indents).2.1
        indents := (unwound column s.indent s.indents).2.2 } := by
  obtain ⟨cursor, flow, indent, indents, keyAllowed, keys, tokens⟩ := s
  obtain rfl : flow = 0 := hflow
  simp only [unwindTo]
  induction indents generalizing indent tokens with
  | nil => simp [unwind, unwound]
  | cons i is ih =>
    rw [unwind, unwound]
    by_cases h : indent ≤ column
    · simp [h]
    · simp only [h, inFlow, emit]
      have h := ih i (tokens ++ [.blockEnd])
      rw [List.append_assoc] at h
      exact h

/-! ## Choosing the step -/

/-- A text begins like a plain scalar: with a character that is no mark, or with one that is none in
front of ink. -/
def BeginsPlain (w : List Char) : Prop :=
  ∀ ch ∈ w.head?, isIndicator ch = false ∨
    ((ch = '-' ∨ ch = '?' ∨ ch = ':') ∧ Cursor.tokenEnds w[1]? = false)

/-- What goes on with a blank, or ends, keeps the second character of a word. -/
theorem tokenEnds_second {w r : List Char} (h : Cursor.tokenEnds w[1]? = false) :
    Cursor.tokenEnds (w ++ r)[1]? = false := by
  match w, h with
  | [], h => exact absurd h (by decide)
  | [_], h => exact absurd h (by simp [Cursor.tokenEnds, Cursor.endsOr])
  | _ :: _ :: _, h => simpa using h

/-- The step for a plain scalar. -/
theorem fetch_plain {s s₁ s₂ : Scanner} {w r : List Char} (h₁ : s.toNextToken.dropStale = .ok s₁)
    (h₂ : s₁.unwindTo s₁.cursor.column = s₂) (hflow : s₂.flow = 0) (hw : PlainWord w)
    (hc : s₂.cursor.rest = w ++ r) (hbegins : BeginsPlain w)
    (hmarker : s₂.cursor.column = 0 → ∀ ch ∈ w.head?, ch ≠ '-' ∧ ch ≠ '.') :
    s.fetch = s₂.fetchPlain := by
  obtain ⟨ch, cs, rfl⟩ := List.exists_cons_of_ne_nil hw.ne_nil
  have hpeek : s₂.cursor.peek = some ch := by simp [Cursor.peek, hc]
  have hin : s₂.inFlow = false := by simp [inFlow, hflow]
  have hplace : s₂.cursor.column = 0 → s₂.cursor.hasMarker "---" = false ∧
      s₂.cursor.hasMarker "..." = false := fun hcol => by
    have := hmarker hcol ch (by simp)
    simpa [Cursor.atDocumentMarker] using @Cursor.not_atDocumentMarker s₂.cursor
      (by simpa [hc] using this.1) (by simpa [hc] using this.2)
  have hdash : (decide (s₂.cursor.column = 0) && s₂.cursor.hasMarker "---") = false := by
    by_cases hcol : s₂.cursor.column = 0
    · simp [(hplace hcol).1]
    · simp [hcol]
  have hdots : (decide (s₂.cursor.column = 0) && s₂.cursor.hasMarker "...") = false := by
    by_cases hcol : s₂.cursor.column = 0
    · simp [(hplace hcol).2]
    · simp [hcol]
  have hink := hw.ink ch (by simp)
  rw [fetch]
  simp only [h₁, bind, Except.bind, h₂, hpeek, hin, hdash, hdots]
  rcases hbegins ch (by simp) with hch | ⟨hch, hnext⟩
  · have hne : ∀ x ∈ "-?:,[]\x7b\x7d#&*!|>'\"%@\x60".toList, ch ≠ x := fun x hx => by
      rintro rfl
      rw [isIndicator, List.contains_iff_mem.mpr hx] at hch
      contradiction
    have hplain : s₂.beginsPlain ch = true := by
      simp [beginsPlain, hch, not_blank_of_ink hink, not_break_of_ink hink]
    simp only [hplain, if_true]
    simp (disch := decide) [hne]
  · have hends : Cursor.tokenEnds (s₂.cursor.peekAt 1) = false := by
      rw [Cursor.peekAt, hc]
      exact tokenEnds_second hnext
    have hplain : s₂.beginsPlain ch = true := by
      rcases hch with rfl | rfl | rfl <;> simp [beginsPlain, hends, hin]
    simp only [hplain, hends, if_true]
    rcases hch with rfl | rfl | rfl <;> simp

/-- The step for a quoted scalar. -/
theorem fetch_quoted {s s₁ s₂ : Scanner} {double : Bool} {r : List Char}
    (h₁ : s.toNextToken.dropStale = .ok s₁) (h₂ : s₁.unwindTo s₁.cursor.column = s₂)
    (hflow : s₂.flow = 0) (hc : s₂.cursor.rest = quoteMark double :: r) :
    s.fetch = s₂.fetchQuoted double := by
  have hin : s₂.inFlow = false := by simp [inFlow, hflow]
  have hdash : s₂.cursor.hasMarker "---" = false := by
    cases double <;> simp [Cursor.hasMarker, hc, quoteMark]
  have hdots : s₂.cursor.hasMarker "..." = false := by
    cases double <;> simp [Cursor.hasMarker, hc, quoteMark]
  rw [fetch]
  simp only [h₁, bind, Except.bind, h₂, Cursor.peek, hc, List.head?_cons, hin, hdash, hdots]
  cases double <;> simp [quoteMark]

/-- The step for a colon that a blank follows. -/
theorem fetch_colon {s s₁ s₂ : Scanner} {r : List Char} (h₁ : s.toNextToken.dropStale = .ok s₁)
    (h₂ : s₁.unwindTo s₁.cursor.column = s₂) (hflow : s₂.flow = 0)
    (hc : s₂.cursor.rest = ':' :: r) (hr : Cursor.tokenEnds r.head? = true) :
    s.fetch = s₂.fetchValue := by
  have hin : s₂.inFlow = false := by simp [inFlow, hflow]
  have hdash : s₂.cursor.hasMarker "---" = false := by simp [Cursor.hasMarker, hc]
  have hdots : s₂.cursor.hasMarker "..." = false := by simp [Cursor.hasMarker, hc]
  have hspaced : Cursor.tokenEnds (s₂.cursor.peekAt 1) = true := by
    rwa [Cursor.peekAt, hc, List.getElem?_cons_succ, ← List.head?_eq_getElem?]
  rw [fetch]
  simp only [h₁, bind, Except.bind, h₂, Cursor.peek, hc, List.head?_cons, hin, hdash, hdots,
    hspaced]
  simp

/-- The step at the end of a text. -/
theorem fetch_end {s s₁ s₂ : Scanner} (h₁ : s.toNextToken.dropStale = .ok s₁)
    (h₂ : s₁.unwindTo s₁.cursor.column = s₂) (hc : s₂.cursor.rest = []) :
    s.fetch = s₂.fetchStreamEnd := by
  rw [fetch]
  simp only [h₁, bind, Except.bind, h₂, Cursor.peek, hc, List.head?_nil]

/-! ## Possible keys -/

theorem dropStale_ok {s : Scanner} (h : ∀ k ∈ s.keys, k.2.required = false) :
    s.dropStale = .ok { s with keys := s.keys.filter fun k => !s.isStale k.2 } := by
  rw [dropStale, if_neg]
  simp only [List.any_eq_true, Bool.and_eq_true, not_exists, not_and]
  intro k hk _
  simp [h k hk]

/-- Keys of lines above are forgotten. -/
theorem dropStale_above {s : Scanner}
    (h : ∀ k ∈ s.keys, k.2.required = false ∧ k.2.line < s.cursor.line) :
    s.dropStale = .ok { s with keys := [] } := by
  rw [dropStale_ok fun k hk => (h k hk).1]
  have hnone : s.keys.filter (fun k => !s.isStale k.2) = [] := by
    rw [List.filter_eq_nil_iff]
    intro k hk
    have := (h k hk).2
    simp [isStale, show k.2.line ≠ s.cursor.line by omega]
  rw [hnone]

/-- A key that has begun on this line, and not long ago, may still be one. -/
theorem dropStale_fresh {s : Scanner}
    (h : ∀ k ∈ s.keys, k.2.line = s.cursor.line ∧ s.cursor.index ≤ k.2.index + 1024) :
    s.dropStale = .ok s := by
  have hfresh : ∀ k ∈ s.keys, s.isStale k.2 = false := fun k hk => by
    have := h k hk
    simp [isStale, this.1]
    omega
  have hall : s.keys.filter (fun k => !s.isStale k.2) = s.keys := by
    rw [List.filter_eq_self]
    intro k hk
    simp [hfresh k hk]
  rw [dropStale, if_neg, hall]
  simp only [List.any_eq_true, Bool.and_eq_true, not_exists, not_and]
  intro k hk hstale
  simp [hfresh k hk] at hstale

/-! ## Runs of steps -/

/-- One round of the loop. -/
def Fetched (s s' : Scanner) : Prop :=
  s.isDone = false ∧ ∃ s₁, s.dropStale = .ok s₁ ∧ s₁.fetch = .ok s'

/-- So many rounds. -/
inductive Rounds : Nat → Scanner → Scanner → Prop
  | none (s : Scanner) : Rounds 0 s s
  | more {n : Nat} {s s₁ s₂ : Scanner} : Fetched s s₁ → Rounds n s₁ s₂ → Rounds (n + 1) s s₂

theorem Rounds.one {s s' : Scanner} (h : Fetched s s') : Rounds 1 s s' := .more h (.none s')

theorem Rounds.trans {m n : Nat} {s s₁ s₂ : Scanner} (h : Rounds m s s₁) (h' : Rounds n s₁ s₂) :
    Rounds (m + n) s s₂ := by
  induction h with
  | none => simpa using h'
  | more hstep _ ih => rw [Nat.succ_add]; exact .more hstep (ih h')

theorem scanAll_rounds {n : Nat} {s s' : Scanner} (h : Rounds n s s') (fuel : Nat)
    (known : List Token) : ∃ known', s.scanAll (n + fuel) known = s'.scanAll fuel known' := by
  induction h generalizing known with
  | none => exact ⟨known, by simp⟩
  | @more n s s₁ s₂ hstep _ ih =>
    obtain ⟨hdone, t, hdrop, hfetch⟩ := hstep
    obtain ⟨known', hrest⟩ := ih t.certain
    refine ⟨known', ?_⟩
    rw [Nat.succ_add, scanAll]
    simp [hdone, hdrop, hfetch, hrest]

end Scanner
end RedisGateway.Yaml
