import RedisGateway.Proofs.Yaml.Fetching

/-!
The lines of a document in blocks. A scanner in front of a line (`Ready`) takes the key and its
colon (`Ready.key`), and behind a colon (`BehindColon`) it takes a scalar and is in front of the
next line (`BehindColon.value`).
-/

namespace RedisGateway.Yaml

/-- The text behind the colon of a key, what it is read as, and whether it is plain. -/
inductive ValueText (indent : Nat) : List Char → List Char → Bool → Prop
  | plain (moved : Bool) {w : List Char} {gs : List (Gap × List Char)} : PlainWord w →
      Scanner.BeginsPlain w → (∀ g ∈ gs, g.1.Parts ∧ PlainWord g.2) →
      ValueText indent
        (' ' :: ((if moved then '\n' :: List.replicate indent ' ' else []) ++
          (w ++ wordsWritten indent gs)))
        (w ++ wordsContent gs) true
  | quoted (double : Bool) {cs content : List Char} : Quoted double cs content →
      ValueText indent (' ' :: quoteMark double :: (cs ++ [quoteMark double])) content false

/-- A value may stand in a document. -/
theorem ValueText.writable {indent : Nat} {V content : List Char} {plain : Bool}
    (h : ValueText indent V content plain) : ∀ ch ∈ V, isWritable ch = true := by
  cases h with
  | plain moved hw _ hgs =>
    refine List.forall_mem_cons.mpr ⟨by decide, List.forall_mem_append.mpr
      ⟨?_, List.forall_mem_append.mpr
        ⟨hw.writable, wordsWritten_writable fun g hg => (hgs g hg).2⟩⟩⟩
    cases moved with
    | false => exact nofun
    | true =>
      exact List.forall_mem_cons.mpr ⟨by decide, Cursor.forall_mem_spaces (by decide) indent⟩
  | quoted double hq =>
    have hmark : isWritable (quoteMark double) = true := by cases double <;> decide
    exact List.forall_mem_cons.mpr ⟨by decide, List.forall_mem_cons.mpr ⟨hmark,
      List.forall_mem_append.mpr ⟨hq.writable, by simpa using hmark⟩⟩⟩

namespace Scanner

/-- A scanner in front of a line: what the line begins with, its column, and the blocks and tokens
so far. Keys that may have begun further up are none. -/
structure Ready (s : Scanner) (column : Nat) (r : List Char) (indent : Int) (indents : List Int)
    (tokens : List Token) : Prop where
  next : ∃ c : Cursor, c.rest = r ∧ c.column = column ∧
    (∀ keys, { s with keys }.toNextToken = { s with keys, cursor := c, keyAllowed := true }) ∧
    ∀ k ∈ s.keys, k.2.required = false ∧ k.2.line < c.line
  flow : s.flow = 0
  indent : s.indent = indent
  indents : s.indents = indents
  tokens : s.tokens = tokens

/-- A scanner behind the colon of a key. -/
structure BehindColon (s : Scanner) (r : List Char) (indent : Int) (indents : List Int)
    (tokens : List Token) : Prop where
  rest : s.cursor.rest = r
  inside : indent < s.cursor.column
  flow : s.flow = 0
  keys : s.keys = []
  keyAllowed : s.keyAllowed = false
  indent : s.indent = indent
  indents : s.indents = indents
  tokens : s.tokens = tokens

variable {s : Scanner} {column : Nat} {r : List Char} {indent : Int} {indents : List Int}
  {tokens : List Token}

/-- In front of a line there is nothing to be held against it. -/
theorem Ready.dropStale (h : Ready s column r indent indents tokens) :
    ∃ s₁ c, s.dropStale = .ok s₁ ∧ c.rest = r ∧ c.column = column ∧
      s₁.toNextToken.dropStale =
        .ok { s with keys := [], cursor := c, keyAllowed := true } := by
  obtain ⟨c, hrest, hcolumn, hnext, hkeys⟩ := h.next
  refine ⟨_, c, dropStale_ok fun k hk => (hkeys k hk).1, hrest, hcolumn, ?_⟩
  rw [hnext, dropStale_above]
  intro k hk
  exact hkeys k (List.mem_of_mem_filter hk)

theorem isDone_eq_false (h : .streamEnd ∉ s.tokens) : s.isDone = false := by
  simp only [isDone, decide_eq_false_iff_not]
  exact fun hlast => h (List.mem_of_mem_getLast? hlast)

/-! ## Behind a colon -/

theorem ready_of_nextLine {n j : Nat} {r : List Char} (hflow : s.flow = 0)
    (hkeys : ∀ k ∈ s.keys, k.2.required = false ∧ k.2.line ≤ s.cursor.line)
    (hc : s.cursor.rest = List.replicate n ' ' ++ '\n' :: (List.replicate j ' ' ++ r))
    (hr : InkOrEnd r) (hsign : r.head? ≠ some '#') :
    Ready s j r s.indent s.indents s.tokens := by
  have hmark : s.cursor.peek ≠ some byteOrderMark := by
    rw [Cursor.peek, hc]
    cases n with
    | zero => simp; decide
    | succ n => simp [List.replicate_succ]; decide
  refine ⟨⟨s.cursor.nextLine n j r, rfl, by simp [Cursor.nextLine], fun keys => ?_, fun k hk => ?_⟩,
    hflow, rfl, rfl, rfl⟩
  · rw [@toNextToken_eq { s with keys } hmark]
    have hlen : s.cursor.rest.length + 1 = (s.cursor.rest.length - 1) + 2 := by
      rw [hc]
      simp
      omega
    rw [hlen]
    exact @skipBlanks_nextLine { s with keys } n j _ r hflow hc hr hsign
  · have := hkeys k hk
    refine ⟨this.1, ?_⟩
    simp only [Cursor.nextLine, Cursor.past_line, Cursor.below_line]
    omega

/-- A colon at the end of a line. -/
theorem BehindColon.ready {j : Nat} {r : List Char}
    (h : BehindColon s ('\n' :: (List.replicate j ' ' ++ r)) indent indents tokens)
    (hr : InkOrEnd r) (hsign : r.head? ≠ some '#') :
    Ready s j r indent indents tokens := by
  have hready := @ready_of_nextLine s 0 j r h.flow (by simp [h.keys]) h.rest hr hsign
  rwa [h.indent, h.indents, h.tokens] at hready

theorem unwound_of_le {column i : Int} {is : List Int} (h : i ≤ column) :
    unwound column i is = ([], i, is) := by
  cases is with
  | nil => rfl
  | cons j js => rw [unwound, if_pos h]

theorem unwindTo_of_le {s : Scanner} {column : Int} (hflow : s.flow = 0) (h : s.indent ≤ column) :
    s.unwindTo column = s := by
  rw [unwind_eq column hflow, unwound_of_le h]
  simp

/-- A scanner behind a colon goes over the spaces there. -/
theorem BehindColon.skip {n : Nat} {r : List Char}
    (h : BehindColon s (List.replicate (n + 1) ' ' ++ r) indent indents tokens) (hr : InkOrEnd r)
    (hsign : r.head? ≠ some '#') :
    ∃ c, s.toNextToken.dropStale = .ok { s with cursor := c } ∧
      ({ s with cursor := c } : Scanner).unwindTo c.column = { s with cursor := c } ∧
      c.rest = r ∧ indent < c.column := by
  have hmark : s.cursor.peek ≠ some byteOrderMark := by
    rw [Cursor.peek, h.rest]
    simp [List.replicate_succ]
    decide
  have hcolumn := h.inside
  refine ⟨s.cursor.past (n + 1) r, ?_, unwindTo_of_le h.flow ?_, rfl, ?_⟩
  · rw [toNextToken_eq hmark, skipBlanks_inline h.rest hr hsign]
    exact dropStale_fresh (by simp [h.keys])
  · simp only [h.indent, Cursor.past_column]
    omega
  · simp only [Cursor.past_column]
    omega

theorem BehindColon.dropStale (h : BehindColon s r indent indents tokens) : s.dropStale = .ok s :=
  dropStale_fresh (by simp [h.keys])

theorem noteKey_of_not_allowed {s : Scanner} (h : s.keyAllowed = false) : s.noteKey = .ok s := by
  rw [noteKey, if_neg (by simp [h])]

/-- A quoted scalar. -/
theorem BehindColon.quoted {j : Nat} {r cs content : List Char} {double : Bool}
    (h : BehindColon s (' ' :: quoteMark double :: (cs ++ [quoteMark double]) ++
      '\n' :: (List.replicate j ' ' ++ r)) indent indents tokens)
    (hquoted : Quoted double cs content) (hdone : .streamEnd ∉ tokens)
    (hr : InkOrEnd r) (hsign : r.head? ≠ some '#') :
    ∃ s', Fetched s s' ∧
      Ready s' j r indent indents (tokens ++ [.scalar (.ofList content) false]) := by
  generalize hbehind : '\n' :: (List.replicate j ' ' ++ r) = behind at h
  have hink : InkOrEnd (quoteMark double :: (cs ++ quoteMark double :: behind)) :=
    inkOrEnd_cons.mpr (Quoted.isInk_quoteMark double)
  have h' : BehindColon s (List.replicate (0 + 1) ' ' ++
      quoteMark double :: (cs ++ quoteMark double :: behind)) indent indents tokens := by
    simpa using h
  obtain ⟨c, hskip, hunwind, hc, -⟩ := h'.skip hink (by cases double <;> simp [quoteMark])
  have hfetch := fetch_quoted hskip hunwind h.flow hc
  obtain ⟨c', hscan, hrest, hline⟩ := @Quoted.reads double cs content hquoted
    (c.rest.length + 1) c.step behind (by simp [hc]; omega)
    (by simp [Cursor.step_rest, hc]) (by simp [← hbehind])
  refine ⟨{ s with cursor := c', keyAllowed := false,
                   tokens := tokens ++ [.scalar (.ofList content) false] },
    ⟨isDone_eq_false (by simpa [h.tokens] using hdone), s, h.dropStale, ?_⟩, ?_⟩
  · rw [hfetch, fetchQuoted, fetchAtom]
    have hnote : ({ s with cursor := c } : Scanner).noteKey = .ok { s with cursor := c } :=
      noteKey_of_not_allowed h.keyAllowed
    simp only [hnote, hscan, bind, Except.bind]
    simp [emit, h.tokens, pure, Except.pure]
  · have hready := @ready_of_nextLine
      { s with cursor := c', keyAllowed := false,
               tokens := tokens ++ [.scalar (.ofList content) false] } 0 j r h.flow
      (by simp [h.keys]) (by simp [hrest, ← hbehind]) hr hsign
    simpa only [h.indent, h.indents] using hready

/-- Where a plain scalar has ended, the scanner is in front of the next line. -/
theorem ready_of_plain {c : Cursor} {j : Nat} {r : List Char} (hflow : s.flow = 0)
    (hkeys : ∀ k ∈ s.keys, k.2.required = false ∧ k.2.line < s.cursor.line)
    (hallowed : s.keyAllowed = true) (hc : s.cursor = c) (hrest : c.rest = r)
    (hcolumn : c.column = j) (hr : InkOrEnd r) (hsign : r.head? ≠ some '#')
    (hmark : r.head? ≠ some byteOrderMark) :
    Ready s j r s.indent s.indents s.tokens := by
  subst hc hrest
  refine ⟨⟨s.cursor, rfl, hcolumn, fun keys => ?_, hkeys⟩, hflow, rfl, rfl, rfl⟩
  rw [@toNextToken_eq { s with keys } hmark,
    @skipBlanks_inline { s with keys } 0 _ s.cursor.rest rfl hr hsign, Cursor.past_zero rfl,
    hallowed]

/-- A scanner behind a colon goes over the space there, and to the next line if the scalar begins
there. -/
theorem BehindColon.skip_fold {below : Nat} {r : List Char} {moved : Bool}
    (h : BehindColon s (' ' :: ((if moved then '\n' :: List.replicate below ' ' else []) ++ r))
      indent indents tokens)
    (hbelow : indent < below) (hr : InkOrEnd r) (hsign : r.head? ≠ some '#') :
    ∃ c keyAllowed, s.toNextToken.dropStale = .ok { s with cursor := c, keyAllowed } ∧
      c.rest = r ∧ indent < c.column := by
  cases moved with
  | false =>
    have h' : BehindColon s (List.replicate (0 + 1) ' ' ++ r) indent indents tokens := h
    obtain ⟨c, hskip, -, hrest, hcolumn⟩ := h'.skip hr hsign
    exact ⟨c, s.keyAllowed, hskip, hrest, hcolumn⟩
  | true =>
    have hrest : s.cursor.rest =
        List.replicate 1 ' ' ++ '\n' :: (List.replicate below ' ' ++ r) := by
      simpa using h.rest
    have hmark : s.cursor.peek ≠ some byteOrderMark := by
      rw [Cursor.peek, hrest]
      simp
      decide
    refine ⟨s.cursor.nextLine 1 below r, true, ?_, rfl, by simpa [Cursor.nextLine] using hbelow⟩
    have hlen : s.cursor.rest.length + 1 = (s.cursor.rest.length - 1) + 2 := by
      rw [hrest]
      simp
    rw [toNextToken_eq hmark, hlen, skipBlanks_nextLine h.flow hrest hr hsign]
    exact dropStale_fresh (by simp [h.keys])

/-- A key that may begin further in than the innermost block need not be one. -/
theorem noteKey_inside (hkeys : s.keys = []) (h : s.indent < s.cursor.column) :
    ∃ keys, s.noteKey = .ok { s with keys } ∧
      ∀ k ∈ keys, k.2.required = false ∧ k.2.line = s.cursor.line := by
  by_cases hallowed : s.keyAllowed = true
  · refine ⟨[(s.flow, { position := s.tokens.length, required := false, index := s.cursor.index,
                        line := s.cursor.line, column := s.cursor.column })], ?_, by simp⟩
    have hdrop : s.dropKey = .ok s := by simp [dropKey, hkeys]
    have hno : s.indent ≠ s.cursor.column := by omega
    rw [noteKey, if_pos hallowed, hdrop]
    simp [bind, Except.bind, pure, Except.pure, hno, hkeys]
  · refine ⟨s.keys, ?_, by simp [hkeys]⟩
    rw [noteKey_of_not_allowed (by simpa using hallowed)]

theorem length_le_wordsWritten {below : Nat} {gs : List (Gap × List Char)}
    (hgs : ∀ g ∈ gs, g.1.Parts ∧ PlainWord g.2) : gs.length ≤ (wordsWritten below gs).length := by
  induction gs with
  | nil => simp
  | cons g gs ih =>
    have hg := List.length_pos_iff.mpr (hgs g (by simp)).2.ne_nil
    have := ih fun x hx => hgs x (by simp [hx])
    simp only [wordsWritten, List.flatMap_cons, List.length_append, List.length_cons] at this ⊢
    omega

/-- A plain scalar, the first word of which may begin a new line. -/
theorem BehindColon.plain {j below : Nat} {r w : List Char} {gs : List (Gap × List Char)}
    {moved : Bool}
    (h : BehindColon s (' ' :: ((if moved then '\n' :: List.replicate below ' ' else []) ++
      (w ++ wordsWritten below gs)) ++ '\n' :: (List.replicate j ' ' ++ r)) indent indents tokens)
    (hw : PlainWord w) (hbegins : BeginsPlain w) (hgs : ∀ g ∈ gs, g.1.Parts ∧ PlainWord g.2)
    (hbelow : indent < below) (hj : (j : Int) ≤ indent) (hdone : .streamEnd ∉ tokens)
    (hr : InkOrEnd r)
    (hsign : ∀ ch ∈ r.head?, ch ≠ '#' ∧ ch ≠ byteOrderMark ∧ ch ≠ '-' ∧ ch ≠ '.') :
    ∃ s', Fetched s s' ∧
      Ready s' j r indent indents (tokens ++ [.scalar (.ofList (w ++ wordsContent gs)) true]) := by
  generalize hrest : wordsWritten below gs ++ '\n' :: (List.replicate j ' ' ++ r) = rest
  have h' : BehindColon s (' ' :: ((if moved then '\n' :: List.replicate below ' ' else []) ++
      (w ++ rest))) indent indents tokens := by
    simpa [← hrest] using h
  have hcomment : (w ++ rest).head? ≠ some '#' := by
    obtain ⟨ch, cs, rfl⟩ := List.exists_cons_of_ne_nil hw.ne_nil
    simpa using hw.no_comment
  obtain ⟨c, keyAllowed, hskip, hc, hcolumn⟩ := h'.skip_fold hbelow hw.inkOrEnd hcomment
  have hunwind : ({ s with cursor := c, keyAllowed } : Scanner).unwindTo c.column =
      { s with cursor := c, keyAllowed } := by
    refine unwindTo_of_le h.flow ?_
    simp only [h.indent]
    omega
  have hfetch := fetch_plain hskip hunwind h.flow hw hc hbegins (fun hzero => by
    simp only at hzero
    omega)
  obtain ⟨keys, hnote, hkeys⟩ := @noteKey_inside { s with cursor := c, keyAllowed } h.keys
    (by simpa only [h.indent] using hcolumn)
  have hlen : gs.length < c.rest.length + 1 := by
    have := @length_le_wordsWritten below gs hgs
    rw [hc, ← hrest]
    simp only [List.length_append]
    omega
  obtain ⟨c', hscan, hrest', hcolumn', hline⟩ := @scanPlain_words c (c.rest.length + 1) [] w r
    (indent + 1) below j gs hw hgs (by omega) (by omega) (by omega) hr
    (fun _ ch hch => (hsign ch hch).2.2) (by omega) hlen (by rw [hc, ← hrest])
  refine ⟨{ s with cursor := c', keyAllowed := true, keys,
                   tokens := tokens ++ [.scalar (.ofList (w ++ wordsContent gs)) true] },
    ⟨isDone_eq_false (by simpa [h.tokens] using hdone), s, h.dropStale, ?_⟩, ?_⟩
  · dsimp only at hnote
    rw [hfetch, fetchPlain, hnote]
    simp [inFlow, h.flow, h.indent, hscan, emit, h.tokens, bind, Except.bind, pure, Except.pure]
  · have hready := @ready_of_plain
      { s with cursor := c', keyAllowed := true, keys,
               tokens := tokens ++ [.scalar (.ofList (w ++ wordsContent gs)) true] } c' j r h.flow
      (fun k hk => ⟨(hkeys k hk).1, by have := (hkeys k hk).2; simp only at this ⊢; omega⟩) rfl rfl
      hrest' hcolumn' hr (fun h => (hsign _ h).1 rfl) (fun h => (hsign _ h).2.1 rfl)
    simpa only [h.indent, h.indents] using hready

/-- The scalar behind a colon. -/
theorem BehindColon.value {j below : Nat} {r V content : List Char} {plain : Bool}
    (h : BehindColon s (V ++ '\n' :: (List.replicate j ' ' ++ r)) indent indents tokens)
    (hV : ValueText below V content plain) (hbelow : indent < below) (hj : (j : Int) ≤ indent)
    (hdone : .streamEnd ∉ tokens) (hr : InkOrEnd r)
    (hsign : ∀ ch ∈ r.head?, ch ≠ '#' ∧ ch ≠ byteOrderMark ∧ ch ≠ '-' ∧ ch ≠ '.') :
    ∃ s', Fetched s s' ∧
      Ready s' j r indent indents (tokens ++ [.scalar (.ofList content) plain]) := by
  cases hV with
  | plain moved hw hbegins hgs => exact h.plain hw hbegins hgs hbelow hj hdone hr hsign
  | quoted double hquoted =>
    exact h.quoted hquoted hdone hr fun hhead => (hsign _ hhead).1 rfl

/-! ## In front of a line -/

theorem blockEnd_of_mem_unwound {column i : Int} {is : List Int} :
    ∀ t ∈ (unwound column i is).1, t = .blockEnd := by
  induction is generalizing i with
  | nil => simp [unwound]
  | cons j js ih =>
    rw [unwound]
    split
    · simp
    · simpa using ih

/-- The key of a line, while its colon is still to come. -/
def keyAt (s : Scanner) (c : Cursor) : PossibleKey :=
  { position := s.tokens.length, required := decide (s.indent = c.column), index := c.index
    line := c.line, column := c.column }

theorem noteKey_first {s : Scanner} (hflow : s.flow = 0) (hkeys : s.keys = [])
    (hallowed : s.keyAllowed = true) :
    s.noteKey = .ok { s with keys := [(0, s.keyAt s.cursor)] } := by
  have hdrop : s.dropKey = .ok s := by simp [dropKey, hkeys]
  rw [noteKey, if_pos hallowed, hdrop]
  simp [bind, Except.bind, pure, Except.pure, keyAt, hkeys, hflow, inFlow]

/-- A key is a plain scalar that ends in front of its colon. -/
theorem fetchPlain_key {s : Scanner} {k r : List Char} (hk : PlainWord k)
    (hr : Cursor.tokenEnds r.head? = true) (hc : s.cursor.rest = k ++ ':' :: r)
    (hflow : s.flow = 0) (hkeys : s.keys = []) (hallowed : s.keyAllowed = true) :
    s.fetchPlain = .ok
      { s with
        cursor := s.cursor.past k.length (':' :: r), keyAllowed := false
        keys := [(0, s.keyAt s.cursor)], tokens := s.tokens ++ [.scalar (.ofList k) true] } := by
  rw [fetchPlain, noteKey_first hflow hkeys hallowed]
  simp [scanPlain_key hk hr hc, inFlow, hflow, emit, bind, Except.bind, pure, Except.pure]

/-- The colon makes a key of what began at the place that was noted, and begins a block there unless
the innermost one is as far in. -/
theorem fetchValue_of_key {s : Scanner} {k : PossibleKey} {front behind : List Token}
    (hflow : s.flow = 0) (hkeys : s.keys = [(0, k)]) (htokens : s.tokens = front ++ behind)
    (hposition : k.position = front.length) :
    s.fetchValue = .ok
      { s with
        cursor := s.cursor.step, keyAllowed := false, keys := []
        indent := if s.indent < k.column then k.column else s.indent
        indents := if s.indent < k.column then s.indent :: s.indents else s.indents
        tokens := front ++ ((if s.indent < k.column then [.blockMappingStart] else []) ++
          .key :: (behind ++ [.value])) } := by
  have hlookup : s.keys.lookup s.flow = some k := by simp [hkeys, hflow]
  rw [fetchValue, hlookup]
  by_cases hbegun : s.indent < k.column
  · simp [insert, inFlow, hflow, hkeys, htokens, hposition, addIndent, hbegun, forward, emit,
      Cursor.steps]
  · simp [insert, inFlow, hflow, hkeys, htokens, hposition, addIndent, hbegun, forward, emit,
      Cursor.steps]

/-- A scanner at the first character of a line, where the blocks that are indented further have
ended. -/
structure AtLine (s : Scanner) (column : Nat) (r : List Char) (indent : Int) (indents : List Int)
    (tokens : List Token) : Prop where
  rest : s.cursor.rest = r
  column : s.cursor.column = column
  flow : s.flow = 0
  keys : s.keys = []
  keyAllowed : s.keyAllowed = true
  indent : s.indent = indent
  indents : s.indents = indents
  tokens : s.tokens = tokens

theorem Ready.atLine {j : Nat} {i : Int} {is : List Int} {ends : List Token}
    (h : Ready s j r indent indents tokens) (hunwound : unwound j indent indents = (ends, i, is)) :
    ∃ s₀ s₁ s₂, s.dropStale = .ok s₀ ∧ s₀.toNextToken.dropStale = .ok s₁ ∧
      s₁.unwindTo s₁.cursor.column = s₂ ∧ AtLine s₂ j r i is (tokens ++ ends) := by
  obtain ⟨s₀, c, hdrop, hc, hcolumn, hnext⟩ := h.dropStale
  refine ⟨s₀, _, _, hdrop, hnext, rfl, ?_⟩
  rw [unwind_eq _ (by simp [h.flow])]
  simp only [h.indent, h.indents, h.tokens, hcolumn, hunwound]
  exact ⟨hc, hcolumn, h.flow, rfl, rfl, rfl, rfl, rfl⟩

/-- A scanner at the colon of a key that began on the same line. -/
structure AtColon (s : Scanner) (k : PossibleKey) (r : List Char) (indent : Int)
    (indents : List Int) (front behind : List Token) : Prop where
  rest : s.cursor.rest = ':' :: r
  flow : s.flow = 0
  keys : s.keys = [(0, k)]
  near : k.line = s.cursor.line ∧ s.cursor.index ≤ k.index + 1024
  column : k.column ≤ s.cursor.column
  position : k.position = front.length
  indent : s.indent = indent
  indents : s.indents = indents
  tokens : s.tokens = front ++ behind

/-- The key at the beginning of a line. -/
theorem Ready.atColon {j : Nat} {k r : List Char} {i : Int} {is : List Int} {ends : List Token}
    (h : Ready s j (k ++ ':' :: r) indent indents tokens) (hk : PlainWord k)
    (hbegins : BeginsPlain k) (hmarker : ∀ ch ∈ k.head?, ch ≠ '-' ∧ ch ≠ '.')
    (hlen : k.length ≤ 1024) (hr : Cursor.tokenEnds r.head? = true) (hdone : .streamEnd ∉ tokens)
    (hunwound : unwound j indent indents = (ends, i, is)) :
    ∃ s' p, Fetched s s' ∧ p.column = j ∧
      AtColon s' p r i is (tokens ++ ends) [.scalar (.ofList k) true] := by
  obtain ⟨s₀, s₁, s₂, hdrop, hnext, hunwind, h₂⟩ := h.atLine hunwound
  have hfetch := fetch_plain hnext hunwind h₂.flow hk h₂.rest hbegins (fun _ => hmarker)
  rw [fetchPlain_key hk hr h₂.rest h₂.flow h₂.keys h₂.keyAllowed] at hfetch
  refine ⟨_, s₂.keyAt s₂.cursor,
    ⟨isDone_eq_false (by rwa [h.tokens]), s₀, hdrop, hfetch⟩, h₂.column, ?_⟩
  exact ⟨rfl, h₂.flow, rfl, ⟨rfl, Nat.add_le_add_left hlen _⟩, Nat.le_add_right _ _,
    by simp [keyAt, h₂.tokens], h₂.indent, h₂.indents, by simp [h₂.tokens]⟩

/-- The colon behind a key. -/
theorem AtColon.behind {k : PossibleKey} {front behind : List Token}
    (h : AtColon s k r indent indents front behind) (hr : Cursor.tokenEnds r.head? = true)
    (hdone : .streamEnd ∉ front ++ behind) (hindent : indent ≤ k.column) :
    ∃ s', Fetched s s' ∧
      BehindColon s' r k.column (if indent < k.column then indent :: indents else indents)
        (front ++ ((if indent < k.column then [.blockMappingStart] else []) ++
          .key :: (behind ++ [.value]))) := by
  have hcolumn := h.column
  have hdrop : s.dropStale = .ok s := dropStale_fresh (by simpa [h.keys] using h.near)
  have hskip : s.toNextToken.dropStale = .ok s := by
    rw [toNextToken_eq (by simp [h.rest, Cursor.peek]; decide),
      @skipBlanks_inline s 0 _ (':' :: r) h.rest (inkOrEnd_cons.mpr (by decide)) (by simp),
      Cursor.past_zero h.rest]
    exact hdrop
  have hunwind : s.unwindTo s.cursor.column = s :=
    unwindTo_of_le h.flow (by rw [h.indent]; omega)
  have hvalue := fetchValue_of_key h.flow h.keys h.tokens h.position
  rw [Cursor.step_inline h.rest (by decide), h.indent, h.indents] at hvalue
  refine ⟨_, ⟨isDone_eq_false (by rwa [h.tokens]), s, hdrop,
    (fetch_colon hskip hunwind h.flow h.rest hr).trans hvalue⟩, ?_⟩
  refine ⟨rfl, ?_, h.flow, rfl, rfl, ?_, rfl, rfl⟩
  · simp only [Cursor.past_column]
    omega
  · simp only
    split <;> omega

/-- A line that begins with a key and its colon. -/
theorem Ready.key {j : Nat} {k r : List Char} {i : Int} {is : List Int} {ends : List Token}
    (h : Ready s j (k ++ ':' :: r) indent indents tokens) (hk : PlainWord k)
    (hbegins : BeginsPlain k) (hmarker : ∀ ch ∈ k.head?, ch ≠ '-' ∧ ch ≠ '.')
    (hlen : k.length ≤ 1024) (hr : Cursor.tokenEnds r.head? = true) (hdone : .streamEnd ∉ tokens)
    (hunwound : unwound j indent indents = (ends, i, is)) (hi : i ≤ j) :
    ∃ s', Rounds 2 s s' ∧
      BehindColon s' r j (if i < j then i :: is else is)
        (tokens ++ ends ++ ((if i < j then [.blockMappingStart] else []) ++
          [.key, .scalar (.ofList k) true, .value])) := by
  have hends : .streamEnd ∉ tokens ++ ends := by
    rw [List.mem_append, not_or]
    refine ⟨hdone, fun hmem => ?_⟩
    have := @blockEnd_of_mem_unwound j indent indents .streamEnd (by rwa [hunwound])
    cases this
  obtain ⟨s₁, p, hkey, rfl, hcolon⟩ := h.atColon hk hbegins hmarker hlen hr hdone hunwound
  obtain ⟨s₂, hvalue, hbehind⟩ := hcolon.behind hr (by simpa using hends) hi
  exact ⟨s₂, .more hkey (.one hvalue), hbehind⟩

/-- The end of a text ends all blocks. -/
theorem Ready.finish {j : Nat} {i i' : Int} {is is' : List Int} {ends ends' : List Token}
    (h : Ready s j [] indent indents tokens) (hdone : .streamEnd ∉ tokens)
    (hunwound : unwound j indent indents = (ends, i, is))
    (hunwound' : unwound (-1) i is = (ends', i', is')) :
    ∃ s', Fetched s s' ∧ s'.tokens = tokens ++ ends ++ ends' ++ [.streamEnd] := by
  obtain ⟨s₀, s₁, s₂, hdrop, hnext, hunwind, h₂⟩ := h.atLine hunwound
  have hmargin : s₂.unwindTo (-1) =
      { s₂ with indent := i', indents := is', tokens := tokens ++ ends ++ ends' } := by
    rw [unwind_eq _ h₂.flow, h₂.indent, h₂.indents, hunwound', h₂.tokens]
  refine ⟨{ s₂ with indent := i', indents := is', keyAllowed := false, keys := [],
                    tokens := tokens ++ ends ++ ends' ++ [.streamEnd] },
    ⟨isDone_eq_false (by rwa [h.tokens]), s₀, hdrop, ?_⟩, rfl⟩
  rw [fetch_end hnext hunwind h₂.rest, fetchStreamEnd, atMargin, hmargin]
  simp [dropKey, h₂.keys, emit, bind, Except.bind, pure, Except.pure]

end Scanner
end RedisGateway.Yaml
