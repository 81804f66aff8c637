import RedisGateway.Proofs.Yaml.Folding
import RedisGateway.Proofs.Yaml.Numerals
import RedisGateway.Proofs.Yaml.Record

/-!
Writing records: what is written is the text of a record whose scalars say what the leaves are
(`write_record`). A text is said as it is unless spaces are lost where its line is folded, or a
next-line character stands between single quotes (`keepsText`).
-/

namespace RedisGateway.Yaml

open Writer (Pen runs styleOf allowsPlain hasMarks isSpecial putPlain putText putLeaf putKey
  leafLine entryLines width)

/-! ## Styles -/

/-- A plain text is not empty and can be written without quotes. -/
theorem plain_of_style {cs : List Char} (h : styleOf cs = .plain) :
    allowsPlain cs = true ∧ cs ≠ [] := by
  constructor
  · by_contra hplain
    rw [styleOf, if_neg (by simp [hplain])] at h
    split at h
    · cases h
    · split at h <;> cases h
  · rintro rfl
    exact absurd h (by decide)

theorem single_of_style {cs : List Char} (h : styleOf cs = .single) :
    '\'' ∉ cs ∧ '\n' ∉ cs ∧ Writer.allowsSingle cs = true := by
  rw [styleOf] at h
  split at h
  · cases h
  · split at h
    · cases h
    · next hquote =>
      split at h
      · next hsingle => simp_all
      · cases h

/-- The first word of a plain text begins like a plain scalar. -/
theorem beginsPlain_of_allowsPlain {cs w r : List Char} (h : allowsPlain cs = true)
    (hcs : cs = w ++ r) (hr : ∀ ch ∈ r.head?, ch = ' ') : Scanner.BeginsPlain w := by
  intro c hc
  obtain ⟨w, rfl⟩ := List.head?_eq_some_iff.mp hc
  obtain rfl : cs = c :: (w ++ r) := hcs
  simp only [allowsPlain, hasMarks, Writer.marksAtStart, Bool.and_eq_true, Bool.not_eq_true',
    Bool.or_eq_false_iff] at h
  obtain ⟨-, -, ⟨hmark, hsign⟩, -⟩ := h
  by_cases hthree : c = '-' ∨ c = '?' ∨ c = ':'
  · right
    have hgap : Writer.isGap (w ++ r).head? = false := by
      rcases hthree with rfl | rfl | rfl <;> simpa using hsign
    have hends : Cursor.tokenEnds (w ++ r).head? = false := by
      simp only [Writer.isGap, Bool.or_eq_false_iff] at hgap
      exact hgap.1.1
    refine ⟨hthree, ?_⟩
    cases w with
    | nil =>
      cases r with
      | nil => exact absurd hends (by decide)
      | cons d r =>
        obtain rfl := hr d (by simp)
        simp [Cursor.tokenEnds, Cursor.endsOr, isSpaceOrTab] at hends
    | cons d w => simpa using hends
  · left
    simp only [not_or] at hthree
    simp_all [Scanner.isIndicator]

/-- Whether a text is read back as it was written behind its key. -/
def keepsText (indent : Nat) (p : Pen) (cs : List Char) : Bool :=
  match styleOf cs with
  | .plain => !losesSpaces indent (p.put [' ']) (runs cs)
  | .single => !cs.contains '\x85'
  | .double => true

/-- What the scalar that is written for a leaf says. -/
def Says (indent : Nat) (p : Pen) : Leaf → Said → Prop
  | .flag b, x => x = ⟨(if b then "true" else "false").toList, true⟩
  | .whole n, x => x = ⟨(toString n).toList, true⟩
  | .text s, x => x.plain = (styleOf s.toList == .plain) ∧
      (x.content = s.toList ↔ keepsText indent p s.toList = true)

section Leaves

variable {indent : Nat} {p : Pen}

theorem putText_value (hpos : 0 < indent) (hindent : indent < width) (s : String) :
    ∃ V x, (putText indent p s.toList).written = V.reverse ++ p.written ∧
      ValueText indent V x.content x.plain ∧ Says indent p (.text s) x := by
  cases hstyle : styleOf s.toList with
  | plain =>
    obtain ⟨hplain, hne⟩ := plain_of_style hstyle
    obtain ⟨moved, w, gs, hw, hgs, ⟨r, hr, hspace⟩, hwritten, hkept⟩ :=
      @putPlain_words indent (p.put [' ']) s.toList (plainText_of_allowsPlain hplain hne)
    refine ⟨_, ⟨w ++ wordsContent gs, true⟩, ?_,
      .plain moved hw (beginsPlain_of_allowsPlain hplain hr hspace) hgs, by simp [hstyle], ?_⟩
    · simp [putText, hstyle, hwritten]
    · simpa [keepsText, hstyle] using hkept
  | single =>
    obtain ⟨hquote, hline, hsingle⟩ := single_of_style hstyle
    simp only [Writer.allowsSingle, Bool.and_eq_true, Bool.not_eq_true',
      List.any_eq_false] at hsingle
    obtain ⟨⟨hspecial, hbr⟩, hsp⟩ := hsingle
    have hchars : ∀ run ∈ runs s.toList, ∀ ch ∈ run, isSpecial ch = false ∧ ch ≠ '\'' := by
      intro run hrun ch hch
      have hmem : ch ∈ s.toList := by
        rw [← runs_flatten s.toList]
        exact List.mem_flatten.mpr ⟨run, hrun, hch⟩
      exact ⟨by simpa using hspecial ch hmem, fun heq => hquote (heq ▸ hmem)⟩
    obtain ⟨out, hwritten, hquoted, -⟩ := putSingle_quoted hpos (parted_runs hbr hsp) hchars
      (p.put [' ', '\'']) true
    refine ⟨_, ⟨settledText s.toList, false⟩, ?_, .quoted false hquoted, by simp [hstyle], ?_⟩
    · simp [putText, hstyle, hwritten, quoteMark]
    · simpa [keepsText, hstyle] using settledText_eq_iff hline
  | double =>
    obtain ⟨out, hwritten, hout⟩ :=
      putDouble_quoted hpos hindent s.toList (p.put [' ', '"']) none []
    refine ⟨_, ⟨s.toList, false⟩, ?_, .quoted true hout.quoted, by simp [hstyle], ?_⟩
    · simp [putText, hstyle, hwritten, quoteMark]
    · simp [keepsText, hstyle]

/-- A word is written behind its key or on a line of its own. -/
theorem putPlain_value {w : List Char} (hw : PlainWord w) (hbegins : Scanner.BeginsPlain w) :
    ∃ V, (putPlain indent (p.put [' ']) [w]).written = V.reverse ++ p.written ∧
      ValueText indent V w true := by
  have hword : Writer.isSpaces w = false := by
    obtain ⟨ch, rest, rfl⟩ := List.exists_cons_of_ne_nil hw.ne_nil
    simp [Writer.isSpaces, ne_space_of_ink (hw.ink ch (by simp))]
  have hvalue : ∀ moved : Bool, ValueText indent
      (' ' :: ((if moved then '\n' :: List.replicate indent ' ' else []) ++ w)) w true :=
      fun moved => by
    simpa [wordsWritten, wordsContent] using
      @ValueText.plain indent moved w [] hw hbegins (by simp)
  refine ⟨_, ?_, hvalue (breaksBefore indent (p.put [' ']) w)⟩
  rw [putPlain_word hword]
  cases breaksBefore indent (p.put [' ']) w <;> simp

theorem putLeaf_value (hpos : 0 < indent) (hindent : indent < width) (l : Leaf) :
    ∃ V x, (putLeaf indent p l).written = V.reverse ++ p.written ∧
      ValueText indent V x.content x.plain ∧ Says indent p l x := by
  cases l with
  | flag b =>
    have hkey : isKeyText (if b then "true" else "false").toList = true := by cases b <;> decide
    have hvalue := @ValueText.plain indent false _ [] (plainWord_of_key hkey)
      (beginsPlain_of_key hkey) (fun g hg => nomatch hg)
    refine ⟨_, ⟨_, true⟩, ?_, hvalue, ?_⟩
    · simp [putLeaf, wordsWritten]
    · simp [Says, wordsContent]
  | whole n =>
    obtain ⟨hw, hbegins⟩ := plainWord_whole n
    obtain ⟨V, hwritten, hvalue⟩ := @putPlain_value indent p _ hw hbegins
    exact ⟨V, _, hwritten, hvalue, rfl⟩
  | text s => exact putText_value hpos hindent s

end Leaves

/-! ## Lines -/

/-- What the line of a leaf says under its key. -/
def SaysLeaf (indent : Nat) (e : String × Leaf) (a : List Char × Said) : Prop :=
  a.1 = e.1.toList ∧ Says (indent + 2) (putKey indent e.1) e.2 a.2

/-- What the lines of an entry say. -/
inductive SaysEntry : String × Entry → List Char × Part → Prop
  | leaf {k : String} {l : Leaf} {x : Said} : SaysLeaf 0 (k, l) (k.toList, x) →
      SaysEntry (k, .leaf l) (k.toList, .scalar x)
  | group {k : String} {ls : List (String × Leaf)} {as : List (List Char × Said)} :
      List.Forall₂ (SaysLeaf 2) ls as → SaysEntry (k, .group ls) (k.toList, .group as)

/-- An entry under a key of small letters and underscores, as are the keys in a group. -/
def IsKeyed : String × Entry → Prop
  | (k, .leaf _) => isKeyText k.toList = true
  | (k, .group ls) =>
    isKeyText k.toList = true ∧ ls ≠ [] ∧ ∀ l ∈ ls, isKeyText l.1.toList = true

theorem leafLine_value {indent : Nat} (hindent : indent + 2 < width) (key : String) (l : Leaf) :
    ∃ V x, (leafLine indent (key, l)).toList =
        List.replicate indent ' ' ++ (key.toList ++ ':' :: (V ++ ['\n'])) ∧
      ValueText (indent + 2) V x.content x.plain ∧ SaysLeaf indent (key, l) (key.toList, x) := by
  obtain ⟨V, x, hwritten, hvalue, hsays⟩ :=
    @putLeaf_value (indent + 2) (putKey indent key) (by omega) hindent l
  have hkey : (putKey indent key).written =
      (List.replicate indent ' ' ++ (key.toList ++ [':'])).reverse := by
    simp [putKey]
  refine ⟨V, x, ?_, hvalue, rfl, hsays⟩
  rw [leafLine, Writer.indentation, hwritten, hkey]
  simp

theorem leaves_text {indent : Nat} (hindent : indent + 2 < width) {ls : List (String × Leaf)}
    (hkeys : ∀ l ∈ ls, isKeyText l.1.toList = true) :
    ∃ as, LeavesText indent as (String.join (ls.map (leafLine indent))).toList ∧
      List.Forall₂ (SaysLeaf indent) ls as := by
  induction ls with
  | nil => exact ⟨[], .nil, .nil⟩
  | cons l ls ih =>
    obtain ⟨as, hrest, hsays⟩ := ih fun x hx => hkeys x (List.mem_cons_of_mem _ hx)
    obtain ⟨V, x, hline, hvalue, hsaid⟩ := leafLine_value hindent l.1 l.2
    refine ⟨(l.1.toList, x) :: as, ?_, .cons hsaid hsays⟩
    have htext := LeavesText.cons (hkeys l List.mem_cons_self) hvalue hrest
    simpa [hline] using htext

/-- What is written of a record is the text of one. -/
theorem write_record {es : List (String × Entry)} (h : ∀ e ∈ es, IsKeyed e) :
    ∃ bs, RecordText bs (Writer.write es).toList ∧ List.Forall₂ SaysEntry es bs := by
  induction es with
  | nil => exact ⟨[], .nil, .nil⟩
  | cons e es ih =>
    obtain ⟨bs, hrest, hsays⟩ := ih fun x hx => h x (List.mem_cons_of_mem _ hx)
    have hkeyed := h e List.mem_cons_self
    obtain ⟨k, l | ls⟩ := e
    · obtain ⟨V, x, hline, hvalue, hsaid⟩ := @leafLine_value 0 (by decide) k l
      refine ⟨(k.toList, .scalar x) :: bs, ?_, .cons (.leaf hsaid) hsays⟩
      have htext := RecordText.scalar hkeyed hvalue hrest
      simpa [Writer.write, entryLines, hline] using htext
    · obtain ⟨hkey, hne, hkeys⟩ := hkeyed
      obtain ⟨as, hgroup, hsaid⟩ := @leaves_text 2 (by decide) ls hkeys
      obtain ⟨l, ls, rfl⟩ := List.exists_cons_of_ne_nil hne
      obtain ⟨a, as, hl, hls, rfl⟩ := List.forall₂_cons_left_iff.mp hsaid
      refine ⟨(k.toList, .group (a :: as)) :: bs, ?_, .cons (.group hsaid) hsays⟩
      have htext := RecordText.group hkey hgroup hrest
      simpa [Writer.write, entryLines, Writer.indentation] using htext

end RedisGateway.Yaml
