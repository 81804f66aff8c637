import RedisGateway.Proofs.Yaml.Lines

/-!
Records in blocks, whose values are scalars or records of scalars: the text of such a record
(`RecordText`) is taken apart into its tokens (`tokens_record`).
-/

namespace RedisGateway.Yaml

/-! ## Keys -/

/-- A key as settings have them: small letters and underscores. -/
def isKeyText (k : List Char) : Bool :=
  !k.isEmpty && k.length ≤ 1024 && k.all "abcdefghijklmnopqrstuvwxyz_".toList.contains

/-- What is known of a character of a key. -/
structure KeyChar (ch : Char) : Prop where
  ink : isInk ch = true
  inline : isInline ch = true
  writable : isWritable ch = true
  noIndicator : Scanner.isIndicator ch = false
  noSign : ch ≠ '#' ∧ ch ≠ byteOrderMark ∧ ch ≠ '-' ∧ ch ≠ '.'
  noColon : ch ≠ ':'

theorem keyChar_of_mem {ch : Char} (h : ch ∈ "abcdefghijklmnopqrstuvwxyz_".toList) :
    KeyChar ch := by
  have hall : "abcdefghijklmnopqrstuvwxyz_".toList.all (fun ch => decide (isInk ch = true ∧
      isInline ch = true ∧ isWritable ch = true ∧ Scanner.isIndicator ch = false ∧
      (ch ≠ '#' ∧ ch ≠ byteOrderMark ∧ ch ≠ '-' ∧ ch ≠ '.') ∧ ch ≠ ':')) = true := by
    decide +kernel
  obtain ⟨hink, hinline, hwritable, hindicator, hsign, hcolon⟩ :=
    of_decide_eq_true (List.all_eq_true.mp hall ch h)
  exact ⟨hink, hinline, hwritable, hindicator, hsign, hcolon⟩

section Keys

variable {k : List Char}

theorem keyChars (h : isKeyText k = true) : ∀ ch ∈ k, KeyChar ch := by
  simp only [isKeyText, Bool.and_eq_true, List.all_eq_true, List.contains_iff_mem] at h
  exact fun ch hch => keyChar_of_mem (h.2 ch hch)

theorem plainWord_of_key (h : isKeyText k = true) : PlainWord k where
  ne_nil := by
    rintro rfl
    simp [isKeyText] at h
  ink ch hch := (keyChars h ch hch).ink
  inline ch hch := (keyChars h ch hch).inline
  writable ch hch := (keyChars h ch hch).writable
  no_comment hhead := (keyChars h _ (List.mem_of_mem_head? hhead)).noSign.1 rfl
  no_key hlast := (keyChars h _ (List.mem_of_mem_getLast? hlast)).noColon rfl

theorem beginsPlain_of_key (h : isKeyText k = true) : Scanner.BeginsPlain k := fun ch hch =>
  .inl (keyChars h ch (List.mem_of_mem_head? hch)).noIndicator

theorem key_length (h : isKeyText k = true) : k.length ≤ 1024 := by
  simp only [isKeyText, Bool.and_eq_true, decide_eq_true_eq] at h
  exact h.1.2

end Keys

/-! ## Records -/

/-- A scalar as it is read: its content, and whether it stands there without quotes. -/
structure Said where
  content : List Char
  plain : Bool

/-- The value of an entry: a scalar, or scalars under keys of their own. -/
inductive Part where
  | scalar (s : Said)
  | group (leaves : List (List Char × Said))

/-- The lines of scalars under keys. -/
inductive LeavesText (indent : Nat) : List (List Char × Said) → List Char → Prop
  | nil : LeavesText indent [] []
  | cons {k V T : List Char} {s : Said} {ls : List (List Char × Said)} : isKeyText k = true →
      ValueText (indent + 2) V s.content s.plain → LeavesText indent ls T →
      LeavesText indent ((k, s) :: ls)
        (List.replicate indent ' ' ++ (k ++ ':' :: (V ++ '\n' :: T)))

/-- The lines of a record. -/
inductive RecordText : List (List Char × Part) → List Char → Prop
  | nil : RecordText [] []
  | scalar {k V T : List Char} {s : Said} {es : List (List Char × Part)} : isKeyText k = true →
      ValueText 2 V s.content s.plain → RecordText es T →
      RecordText ((k, .scalar s) :: es) (k ++ ':' :: (V ++ '\n' :: T))
  | group {k G T : List Char} {l : List Char × Said} {ls : List (List Char × Said)}
      {es : List (List Char × Part)} : isKeyText k = true → LeavesText 2 (l :: ls) G →
      RecordText es T → RecordText ((k, .group (l :: ls)) :: es) (k ++ ':' :: '\n' :: (G ++ T))

theorem LeavesText.writable {indent : Nat} {ls : List (List Char × Said)} {G : List Char}
    (h : LeavesText indent ls G) : ∀ ch ∈ G, isWritable ch = true := by
  induction h with
  | nil => exact nofun
  | cons hk hV _ ih =>
    exact List.forall_mem_append.mpr ⟨Cursor.forall_mem_spaces (by decide) indent,
      List.forall_mem_append.mpr ⟨(plainWord_of_key hk).writable,
        List.forall_mem_cons.mpr ⟨by decide, List.forall_mem_append.mpr ⟨hV.writable,
          List.forall_mem_cons.mpr ⟨by decide, ih⟩⟩⟩⟩⟩

/-- The text of a record may stand in a document. -/
theorem RecordText.writable {es : List (List Char × Part)} {T : List Char}
    (h : RecordText es T) : ∀ ch ∈ T, isWritable ch = true := by
  induction h with
  | nil => exact nofun
  | scalar hk hV _ ih =>
    exact List.forall_mem_append.mpr ⟨(plainWord_of_key hk).writable,
      List.forall_mem_cons.mpr ⟨by decide, List.forall_mem_append.mpr ⟨hV.writable,
        List.forall_mem_cons.mpr ⟨by decide, ih⟩⟩⟩⟩
  | group hk hG _ ih =>
    exact List.forall_mem_append.mpr ⟨(plainWord_of_key hk).writable,
      List.forall_mem_cons.mpr ⟨by decide, List.forall_mem_cons.mpr ⟨by decide,
        List.forall_mem_append.mpr ⟨hG.writable, ih⟩⟩⟩⟩

/-! ## Tokens -/

def keyTokens (k : List Char) : List Token := [.key, .scalar (.ofList k) true, .value]

def Said.token (s : Said) : Token := .scalar (.ofList s.content) s.plain

def leafTokens (l : List Char × Said) : List Token := keyTokens l.1 ++ [l.2.token]

def Part.tokens : Part → List Token
  | .scalar s => [s.token]
  | .group ls => .blockMappingStart :: (ls.flatMap leafTokens ++ [.blockEnd])

def entryTokens (e : List Char × Part) : List Token := keyTokens e.1 ++ e.2.tokens

/-- The tokens of a document that holds a record. -/
def recordTokens (es : List (List Char × Part)) : List Token :=
  .blockMappingStart :: (es.flatMap entryTokens ++ [.blockEnd, .streamEnd])

/-! ## Lines -/

/-- How far the first line of a text is indented. -/
def margin (T : List Char) : Nat := (T.takeWhile (· = ' ')).length

/-- A text without the indentation of its first line. -/
def body (T : List Char) : List Char := T.dropWhile (· = ' ')

theorem eq_margin_body (T : List Char) : T = List.replicate (margin T) ' ' ++ body T := by
  have hspaces : T.takeWhile (· = ' ') = List.replicate (margin T) ' ' :=
    List.eq_replicate_iff.mpr
      ⟨rfl, fun ch hch => by simpa using List.all_eq_true.mp List.all_takeWhile ch hch⟩
  rw [← hspaces, body, List.takeWhile_append_dropWhile]

theorem margin_indented {n : Nat} {r : List Char} (hr : InkOrEnd r) :
    margin (List.replicate n ' ' ++ r) = n := by
  rw [margin, takeWhile_append_stop (Cursor.forall_mem_spaces (by decide) n) hr.not_space]
  simp

theorem body_indented {n : Nat} {r : List Char} (hr : InkOrEnd r) :
    body (List.replicate n ' ' ++ r) = r := by
  have h := eq_margin_body (List.replicate n ' ' ++ r)
  rw [margin_indented hr, List.append_cancel_left_eq] at h
  exact h.symm

/-- A line, if there is one, begins with a key. -/
def BeginsKey (T : List Char) : Prop :=
  ∀ ch ∈ (body T).head?, KeyChar ch

theorem BeginsKey.inkOrEnd {T : List Char} (h : BeginsKey T) : InkOrEnd (body T) :=
  fun ch hch => (h ch hch).ink

theorem line_of_key {k r : List Char} (n : Nat) (hk : isKeyText k = true) :
    margin (List.replicate n ' ' ++ (k ++ r)) = n ∧
      body (List.replicate n ' ' ++ (k ++ r)) = k ++ r ∧
      BeginsKey (List.replicate n ' ' ++ (k ++ r)) := by
  have hink : InkOrEnd (k ++ r) := (plainWord_of_key hk).inkOrEnd
  have hbody := @body_indented n (k ++ r) hink
  refine ⟨margin_indented hink, hbody, ?_⟩
  intro ch hch
  rw [hbody] at hch
  obtain ⟨x, xs, rfl⟩ := List.exists_cons_of_ne_nil (plainWord_of_key hk).ne_nil
  obtain rfl : x = ch := by simpa using hch
  exact keyChars hk x (by simp)

theorem beginsKey_record {es : List (List Char × Part)} {T : List Char} (h : RecordText es T) :
    BeginsKey T ∧ margin T = 0 := by
  cases h with
  | nil => simp [BeginsKey, body, margin]
  | scalar hk => exact ⟨(line_of_key 0 hk).2.2, (line_of_key 0 hk).1⟩
  | group hk => exact ⟨(line_of_key 0 hk).2.2, (line_of_key 0 hk).1⟩

theorem beginsKey_leaves {indent : Nat} {ls : List (List Char × Said)}
    {es : List (List Char × Part)} {G T : List Char} (hG : LeavesText indent ls G)
    (hT : RecordText es T) : BeginsKey (G ++ T) ∧ margin (G ++ T) ≤ indent := by
  cases hG with
  | nil =>
    have h := beginsKey_record hT
    exact ⟨h.1, by simp [h.2]⟩
  | @cons k V G s ls hk hV hG =>
    have h := @line_of_key k (':' :: (V ++ '\n' :: G) ++ T) indent hk
    simp only [List.append_assoc]
    exact ⟨h.2.2, Nat.le_of_eq h.1⟩

namespace Scanner

/-- A scanner at the beginning of a line, or in front of the line break before it. -/
def ReadyFor (s : Scanner) (T : List Char) (indent : Int) (indents : List Int)
    (tokens : List Token) : Prop :=
  Ready s (margin T) (body T) indent indents tokens

/-- The scalar behind a colon, up to the next line. -/
theorem BehindColon.value_for {s : Scanner} {V T content : List Char} {plain : Bool} {below : Nat}
    {indent : Int} {indents : List Int} {tokens : List Token}
    (h : BehindColon s (V ++ '\n' :: T) indent indents tokens)
    (hV : ValueText below V content plain) (hT : BeginsKey T)
    (hmargin : (margin T : Int) ≤ indent) (hbelow : indent < below) (hdone : .streamEnd ∉ tokens) :
    ∃ s', Fetched s s' ∧
      ReadyFor s' T indent indents (tokens ++ [.scalar (.ofList content) plain]) := by
  rw [eq_margin_body T] at h
  exact h.value hV hbelow hmargin hdone hT.inkOrEnd fun ch hch => (hT ch hch).noSign

section Steps

variable {s : Scanner} {indent i : Int} {indents is : List Int} {tokens ends : List Token}
  {k V T : List Char}

/-- The token that begins a block, unless one is as far in. -/
def opening (i : Int) (column : Nat) : List Token :=
  if i < column then [.blockMappingStart] else []

/-- The blocks around the one at a column. -/
def around (i : Int) (is : List Int) (column : Nat) : List Int :=
  if i < column then i :: is else is

@[simp] theorem opening_same (column : Nat) : opening column column = [] := by simp [opening]

@[simp] theorem around_same (is : List Int) (column : Nat) : around column is column = is := by
  simp [around]

theorem streamEnd_notMem_opening (i : Int) (column : Nat) : .streamEnd ∉ opening i column := by
  unfold opening
  split <;> simp

/-- The key of a line and its colon. -/
theorem ReadyFor.key {n : Nat}
    (h : ReadyFor s (List.replicate n ' ' ++ (k ++ ':' :: T)) indent indents tokens)
    (hk : isKeyText k = true) (hT : Cursor.tokenEnds T.head? = true) (hdone : .streamEnd ∉ tokens)
    (hunwound : unwound n indent indents = (ends, i, is)) (hi : i ≤ n) :
    ∃ s', Rounds 2 s s' ∧
      BehindColon s' T n (around i is n) (tokens ++ ends ++ (opening i n ++ keyTokens k)) := by
  obtain ⟨hmargin, hbody, -⟩ := @line_of_key k (':' :: T) n hk
  rw [ReadyFor, hmargin, hbody] at h
  exact h.key (plainWord_of_key hk) (beginsPlain_of_key hk)
    (fun ch hch => (keyChars hk ch (List.mem_of_mem_head? hch)).noSign.2.2) (key_length hk) hT hdone
    hunwound hi

theorem streamEnd_notMem_line {ends : List Token} {column : Int}
    (hdone : .streamEnd ∉ tokens) (hunwound : unwound column indent indents = (ends, i, is))
    (n : Nat) (k : List Char) :
    .streamEnd ∉ tokens ++ ends ++ (opening i n ++ keyTokens k) := by
  have hends : .streamEnd ∉ ends := fun hmem => by
    have := @blockEnd_of_mem_unwound column indent indents .streamEnd (by rwa [hunwound])
    cases this
  simp [hdone, hends, streamEnd_notMem_opening, keyTokens]

theorem valueText_begins {below : Nat} {content : List Char} {plain : Bool}
    (h : ValueText below V content plain) : ∃ V', V = ' ' :: V' := by
  cases h with
  | plain => exact ⟨_, rfl⟩
  | quoted => exact ⟨_, rfl⟩

/-- A line with a scalar. -/
theorem ReadyFor.leaf {n : Nat} {x : Said}
    (h : ReadyFor s (List.replicate n ' ' ++ (k ++ ':' :: (V ++ '\n' :: T))) indent indents tokens)
    (hk : isKeyText k = true) (hV : ValueText (n + 2) V x.content x.plain) (hT : BeginsKey T)
    (hmargin : margin T ≤ n) (hdone : .streamEnd ∉ tokens)
    (hunwound : unwound n indent indents = (ends, i, is)) (hi : i ≤ n) :
    ∃ s', Rounds 3 s s' ∧
      ReadyFor s' T n (around i is n) (tokens ++ ends ++ (opening i n ++ leafTokens (k, x))) := by
  have hends : Cursor.tokenEnds (V ++ '\n' :: T).head? = true := by
    obtain ⟨V', rfl⟩ := valueText_begins hV
    rfl
  obtain ⟨s₁, hrounds, hcolon⟩ := h.key hk hends hdone hunwound hi
  obtain ⟨s', hfetched, hready⟩ := hcolon.value_for hV hT (by omega) (by omega)
    (streamEnd_notMem_line hdone hunwound n k)
  refine ⟨s', hrounds.trans (.one hfetched), ?_⟩
  simpa [leafTokens, Said.token] using hready

/-- The lines of a block that has begun. -/
theorem ReadyFor.leaves {n : Nat} {ls : List (List Char × Said)} {es : List (List Char × Part)}
    {G : List Char} (h : ReadyFor s (G ++ T) n indents tokens) (hG : LeavesText n ls G)
    (hT : RecordText es T) (hdone : .streamEnd ∉ tokens) :
    ∃ m s', Rounds m s s' ∧ ReadyFor s' T n indents (tokens ++ ls.flatMap leafTokens) ∧
      m + T.length ≤ (G ++ T).length := by
  induction hG generalizing s tokens with
  | nil => exact ⟨0, s, .none s, by simpa using h, by simp⟩
  | @cons k V G x ls hk hV hG ih =>
    obtain ⟨hbegins, hmargin⟩ := beginsKey_leaves hG hT
    have h : ReadyFor s (List.replicate n ' ' ++ (k ++ ':' :: (V ++ '\n' :: (G ++ T)))) n indents
        tokens := by simpa using h
    obtain ⟨s₁, hrounds, hready⟩ := h.leaf hk hV hbegins hmargin hdone
      (unwound_of_le (Int.le_refl _)) (Int.le_refl _)
    simp only [List.append_nil, around_same, opening_same, List.nil_append] at hready
    obtain ⟨m, s', hrounds', hready', hlen⟩ := ih hready
      (by simp [hdone, leafTokens, keyTokens, Said.token])
    refine ⟨3 + m, s', hrounds.trans hrounds', by simpa using hready', ?_⟩
    obtain ⟨V', rfl⟩ := valueText_begins hV
    simp at hlen ⊢
    omega

/-- A scanner in front of an entry of the outermost record, and the tokens up to there, those that
end blocks further in among them. -/
def Between (s : Scanner) (T : List Char) (i : Int) (is : List Int) (tokens : List Token) : Prop :=
  ∃ indent indents before ends, ReadyFor s T indent indents before ∧
    unwound 0 indent indents = (ends, i, is) ∧ tokens = before ++ ends ∧ .streamEnd ∉ before

theorem between_of_ready {tokens : List Token} (h : ReadyFor s T 0 is tokens)
    (hdone : .streamEnd ∉ tokens) : Between s T 0 is tokens :=
  ⟨0, is, tokens, [], h, unwound_of_le (Int.le_refl _), by simp, hdone⟩

/-- An entry with a scalar. -/
theorem Between.scalar {x : Said} {es : List (List Char × Part)}
    (h : Between s (k ++ ':' :: (V ++ '\n' :: T)) i is tokens) (hi : i ≤ 0)
    (hk : isKeyText k = true) (hV : ValueText 2 V x.content x.plain) (hT : RecordText es T) :
    ∃ s', Rounds 3 s s' ∧
      Between s' T 0 (around i is 0) (tokens ++ (opening i 0 ++ entryTokens (k, .scalar x))) := by
  obtain ⟨indent, indents, before, ends, hready, hunwound, rfl, hdone⟩ := h
  obtain ⟨hbegins, hmargin⟩ := beginsKey_record hT
  have hready : ReadyFor s (List.replicate 0 ' ' ++ (k ++ ':' :: (V ++ '\n' :: T))) indent indents
      before := by simpa using hready
  obtain ⟨s', hrounds, hready'⟩ := hready.leaf hk hV hbegins (by omega) hdone hunwound hi
  refine ⟨s', hrounds, between_of_ready ?_ ?_⟩
  · simpa [leafTokens, entryTokens, Part.tokens] using hready'
  have := streamEnd_notMem_line hdone hunwound 0 k
  simpa [entryTokens, Part.tokens, Said.token] using this

/-- An entry with a block of its own. -/
theorem Between.group {G : List Char} {l : List Char × Said} {ls : List (List Char × Said)}
    {es : List (List Char × Part)} (h : Between s (k ++ ':' :: '\n' :: (G ++ T)) i is tokens)
    (hi : i ≤ 0) (hk : isKeyText k = true) (hG : LeavesText 2 (l :: ls) G) (hT : RecordText es T) :
    ∃ m s', Rounds m s s' ∧
      Between s' T 0 (around i is 0)
        (tokens ++ (opening i 0 ++ entryTokens (k, .group (l :: ls)))) ∧
      m + T.length ≤ (k ++ ':' :: '\n' :: (G ++ T)).length := by
  obtain ⟨indent, indents, before, ends, hready, hunwound, rfl, hdone⟩ := h
  cases hG with
  | @cons k' V G x _ hk' hV hG =>
    obtain ⟨hbegins, hmargin⟩ := beginsKey_leaves hG hT
    have hready : ReadyFor s (List.replicate 0 ' ' ++ (k ++ ':' :: ('\n' :: (List.replicate 2 ' ' ++
        (k' ++ ':' :: (V ++ '\n' :: (G ++ T))))))) indent indents before := by simpa using hready
    have hdone₁ := streamEnd_notMem_line hdone hunwound 0 k
    obtain ⟨s₁, hrounds₁, hcolon⟩ := hready.key hk (tokenEnds_break _) hdone hunwound hi
    -- the colon ends its line, and the first line of the block begins it
    obtain ⟨hmargin', hbody', -⟩ := @line_of_key k' (':' :: (V ++ '\n' :: (G ++ T))) 2 hk'
    have hready₁ : ReadyFor s₁ (List.replicate 2 ' ' ++ (k' ++ ':' :: (V ++ '\n' :: (G ++ T)))) 0
        (around i is 0) (before ++ ends ++ (opening i 0 ++ keyTokens k)) := by
      rw [ReadyFor, hmargin', hbody']
      refine hcolon.ready (plainWord_of_key hk').inkOrEnd fun hhead => ?_
      obtain ⟨ch, cs, rfl⟩ := List.exists_cons_of_ne_nil (plainWord_of_key hk').ne_nil
      exact (keyChars hk' ch (by simp)).noSign.1 (by simpa using hhead)
    obtain ⟨s₂, hrounds₂, hready₂⟩ := hready₁.leaf hk' hV hbegins hmargin hdone₁
      (unwound_of_le (by omega)) (by omega)
    have hstart : opening 0 2 = [.blockMappingStart] := by simp [opening]
    have haround : around 0 (around i is 0) 2 = 0 :: around i is 0 := by simp [around]
    rw [hstart, haround] at hready₂
    obtain ⟨m, s₃, hrounds₃, hready₃, hlen⟩ := hready₂.leaves hG hT (by
      simpa [leafTokens, keyTokens, Said.token] using hdone₁)
    refine ⟨2 + 3 + m, s₃, (hrounds₁.trans hrounds₂).trans hrounds₃,
      ⟨2, 0 :: around i is 0, _, [.blockEnd], hready₃, ?_, ?_, ?_⟩, ?_⟩
    · rw [unwound, if_neg (by omega), unwound_of_le (Int.le_refl _)]
    · simp [entryTokens, Part.tokens]
    · simpa [leafTokens, keyTokens, Said.token] using hdone₁
    · obtain ⟨V', rfl⟩ := valueText_begins hV
      simp at hlen ⊢
      omega

/-- The entries of the outermost record, once it has begun. -/
theorem Between.record {es : List (List Char × Part)} (h : Between s T 0 is tokens)
    (hT : RecordText es T) :
    ∃ m s', Rounds m s s' ∧ Between s' [] 0 is (tokens ++ es.flatMap entryTokens) ∧
      m ≤ T.length := by
  induction hT generalizing s tokens with
  | nil => exact ⟨0, s, .none s, by simpa using h, by simp⟩
  | scalar hk hV hT ih =>
    obtain ⟨s₁, hrounds, hbetween⟩ := h.scalar (Int.le_refl _) hk hV hT
    obtain ⟨m, s', hrounds', hbetween', hlen⟩ := ih (by simpa [around, opening] using hbetween)
    refine ⟨3 + m, s', hrounds.trans hrounds', by simpa using hbetween', ?_⟩
    obtain ⟨V', rfl⟩ := valueText_begins hV
    simp
    omega
  | group hk hG hT ih =>
    obtain ⟨m, s₁, hrounds, hbetween, hlen⟩ := h.group (Int.le_refl _) hk hG hT
    obtain ⟨m', s', hrounds', hbetween', hlen'⟩ := ih (by simpa [around, opening] using hbetween)
    exact ⟨m + m', s', hrounds.trans hrounds', by simpa using hbetween', by omega⟩

end Steps

theorem fresh_between {T : List Char} {es : List (List Char × Part)} (hT : RecordText es T) :
    Between { cursor := { rest := T } } T (-1) [] [] := by
  obtain ⟨hbegins, hmargin⟩ := beginsKey_record hT
  have hbody : body T = T := by
    have h := eq_margin_body T
    rw [hmargin] at h
    simpa using h.symm
  have hsign : ∀ ch ∈ T.head?, ch ≠ '#' ∧ ch ≠ byteOrderMark := fun ch hch => by
    have := (hbegins ch (by rwa [hbody])).noSign
    exact ⟨this.1, this.2.1⟩
  refine ⟨-1, [], [], [], ?_, rfl, rfl, by simp⟩
  rw [ReadyFor, hmargin, hbody]
  refine ⟨⟨{ rest := T }, rfl, rfl, fun keys => ?_, by simp⟩, rfl, rfl, rfl, rfl⟩
  rw [toNextToken_eq fun h => (hsign _ h).2 rfl,
    @skipBlanks_inline _ 0 _ T rfl (hbody ▸ hbegins.inkOrEnd) fun h => (hsign _ h).1 rfl]
  rfl

/-- The first entry begins the record. -/
theorem Between.first {s : Scanner} {T : List Char} {es : List (List Char × Part)}
    (h : Between s T (-1) [] []) (hT : RecordText es T) (hne : es ≠ []) :
    ∃ m s', Rounds m s s' ∧
      Between s' [] 0 [-1] (.blockMappingStart :: es.flatMap entryTokens) ∧ m ≤ T.length := by
  cases hT with
  | nil => exact absurd rfl hne
  | scalar hk hV hT =>
    obtain ⟨s₁, hrounds, hbetween⟩ := h.scalar (by decide) hk hV hT
    obtain ⟨m, s', hrounds', hbetween', hlen⟩ :=
      Between.record (by simpa [around, opening] using hbetween) hT
    refine ⟨3 + m, s', hrounds.trans hrounds', by simpa using hbetween', ?_⟩
    obtain ⟨V', rfl⟩ := valueText_begins hV
    simp
    omega
  | group hk hG hT =>
    obtain ⟨m, s₁, hrounds, hbetween, hlen⟩ := h.group (by decide) hk hG hT
    obtain ⟨m', s', hrounds', hbetween', hlen'⟩ :=
      Between.record (by simpa [around, opening] using hbetween) hT
    exact ⟨m + m', s', hrounds.trans hrounds', by simpa using hbetween', by omega⟩

end Scanner

/-- The text of a record is taken apart into the tokens of the record. -/
theorem tokens_record {es : List (List Char × Part)} {T : List Char} (hT : RecordText es T)
    (hne : es ≠ []) : tokens T = (recordTokens es, none) := by
  obtain ⟨m, s, hrounds, hbetween, hlen⟩ := (Scanner.fresh_between hT).first hT hne
  obtain ⟨indent, indents, before, ends, hready, hunwound, hbefore, hdone⟩ := hbetween
  have hlast : Scanner.unwound (-1) 0 [-1] = ([.blockEnd], -1, []) := by decide
  obtain ⟨s', hfetched, htokens⟩ := Scanner.Ready.finish hready hdone hunwound hlast
  obtain ⟨known, hscan⟩ := Scanner.scanAll_rounds (hrounds.trans (.one hfetched))
    (2 * T.length + 2 - (m + 1)) []
  have hfuel : m + 1 + (2 * T.length + 2 - (m + 1)) = 2 * T.length + 2 := by omega
  have htokens' : s'.tokens = recordTokens es := by
    rw [htokens, ← hbefore]
    simp [recordTokens]
  have hend : s'.isDone = true := by simp [Scanner.isDone, htokens]
  rw [hfuel] at hscan
  rw [tokens, hscan, ← htokens']
  cases 2 * T.length + 2 - (m + 1) with
  | zero => rfl
  | succ fuel => simp [Scanner.scanAll, hend]

end RedisGateway.Yaml
