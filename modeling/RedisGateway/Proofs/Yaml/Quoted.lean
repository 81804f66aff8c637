import Mathlib.Algebra.Group.Nat.Defs
import RedisGateway.Proofs.Yaml.Cursor
import RedisGateway.Yaml.Scalar
import RedisGateway.Yaml.Writer

/-!
What stands between the quotes of a scalar, beside what it is read as (`Quoted`). A scanner that
begins behind the opening quote takes exactly this content and stops behind the closing quote
(`Quoted.reads`).
-/

namespace RedisGateway.Yaml

/-! ## Escapes -/

theorem escapedChar?_of_letter {ch l : Char} (h : Writer.escapeLetter? ch = some l) :
    escapedChar? l = some ch := by
  unfold Writer.escapeLetter? at h
  split at h <;> first | (cases h; rfl) | cases h

/-- A hexadecimal digit as escapes have it. -/
def escapeDigit (n : Nat) : Char := (Text.hexDigit n).toUpper

theorem escapeDigit_spec : ∀ n < 16, isHexDigit (escapeDigit n) = true ∧
    hexValue (escapeDigit n) = n := by
  decide

theorem hexDigits_length (width n : Nat) : (Text.hexDigits width n).length = width := by
  induction width generalizing n with
  | zero => rfl
  | succ width ih => simp [Text.hexDigits, ih]

/-- The digits of an escape. -/
def escapeDigits (width n : Nat) : List Char := (Text.hexDigits width n).map Char.toUpper

theorem escapeDigits_succ (width n : Nat) :
    escapeDigits (width + 1) n = escapeDigits width (n / 16) ++ [escapeDigit (n % 16)] := by
  simp [escapeDigits, Text.hexDigits, escapeDigit]

theorem escapeDigits_length (width n : Nat) : (escapeDigits width n).length = width := by
  simp [escapeDigits, hexDigits_length]

theorem escapeDigits_hex (width n : Nat) : ∀ ch ∈ escapeDigits width n, isHexDigit ch = true := by
  induction width generalizing n with
  | zero => simp [escapeDigits, Text.hexDigits]
  | succ width ih =>
    intro ch hch
    rw [escapeDigits_succ, List.mem_append, List.mem_singleton] at hch
    rcases hch with hch | rfl
    · exact ih _ ch hch
    · exact (escapeDigit_spec _ (Nat.mod_lt _ (by decide))).1

theorem natOfHex_append (cs : List Char) (d : Char) :
    natOfHex (cs ++ [d]) = natOfHex cs * 16 + hexValue d := by
  simp [natOfHex]

theorem natOfHex_escapeDigits (width n : Nat) :
    natOfHex (escapeDigits width n) = n % 16 ^ width := by
  induction width generalizing n with
  | zero => simp [escapeDigits, Text.hexDigits, natOfHex, Nat.mod_one]
  | succ width ih =>
    have hd : hexValue (escapeDigit (n % 16)) = n % 16 :=
      (escapeDigit_spec _ (Nat.mod_lt _ (by decide))).2
    calc natOfHex (escapeDigits (width + 1) n)
        = natOfHex (escapeDigits width (n / 16)) * 16 + n % 16 := by
          rw [escapeDigits_succ, natOfHex_append, hd]
      _ = n / 16 % 16 ^ width * 16 + n % 16 := by rw [ih]
      _ = n % 16 ^ (width + 1) := by
          rw [Nat.pow_succ, Nat.mul_comm (16 ^ width), Nat.mod_mul]
          omega

theorem scanHex_escapeDigits {c : Cursor} {width n : Nat} {r : List Char}
    (hc : c.rest = escapeDigits width n ++ r) (hn : n < 16 ^ width) :
    scanHex width c = .ok (n, c.steps width) := by
  have hlen := escapeDigits_length width n
  have htake : c.rest.take width = escapeDigits width n := by
    rw [hc, List.take_append_of_le_length (by omega), List.take_of_length_le (by omega)]
  have hall : (escapeDigits width n).all isHexDigit = true :=
    List.all_eq_true.mpr (escapeDigits_hex width n)
  simp only [scanHex, htake, hlen, hall, natOfHex_escapeDigits, Nat.mod_eq_of_lt hn]
  rfl

/-- The letter of an escape with digits, and how many there are. -/
theorem escape_cases (ch : Char) :
    (∃ l, Writer.escapeLetter? ch = some l ∧ Writer.escape ch = ['\\', l]) ∨
    ∃ l width, escapedChar? l = none ∧ escapeWidth? l = some width ∧ ch.toNat < 16 ^ width ∧
      Writer.escape ch = '\\' :: l :: escapeDigits width ch.toNat := by
  cases hl : Writer.escapeLetter? ch with
  | some l => exact .inl ⟨l, rfl, by simp [Writer.escape, hl]⟩
  | none =>
    refine .inr ?_
    have hch : ch.toNat < 0x110000 := by
      have := ch.valid
      simp only [UInt32.isValidChar, Nat.isValidChar] at this
      simp only [Char.toNat]
      omega
    by_cases h2 : ch.toNat ≤ 0xFF
    · exact ⟨'x', 2, rfl, rfl, by omega, by simp [Writer.escape, hl, h2, escapeDigits]⟩
    · by_cases h4 : ch.toNat ≤ 0xFFFF
      · exact ⟨'u', 4, rfl, rfl, by omega, by simp [Writer.escape, hl, h2, h4, escapeDigits]⟩
      · exact ⟨'U', 8, rfl, rfl, by omega, by simp [Writer.escape, hl, h2, h4, escapeDigits]⟩

/-- An escape begins with a backslash. -/
theorem escape_eq_cons (ch : Char) : ∃ e, Writer.escape ch = '\\' :: e := by
  rcases escape_cases ch with ⟨l, -, h⟩ | ⟨l, width, -, -, -, h⟩
  · exact ⟨[l], h⟩
  · exact ⟨_, h⟩

theorem writable_of_hex {ch : Char} (h : isHexDigit ch = true) : isWritable ch = true := by
  simp only [isHexDigit, Text.isDigit, Bool.or_eq_true, Bool.and_eq_true, decide_eq_true_eq,
    Char.le_def, UInt32.le_iff_toNat_le] at h
  simp only [isWritable, isAllowed, Bool.and_eq_true, Bool.or_eq_true, decide_eq_true_eq]
  have hr : ch ≠ '\r' := by rintro rfl; exact absurd h (by decide)
  refine ⟨?_, hr⟩
  simp only [Char.toNat]
  have h0 : ('0' : Char).val.toNat = 48 := rfl
  have h9 : ('9' : Char).val.toNat = 57 := rfl
  have ha : ('a' : Char).val.toNat = 97 := rfl
  have hf : ('f' : Char).val.toNat = 102 := rfl
  have hA : ('A' : Char).val.toNat = 65 := rfl
  have hF : ('F' : Char).val.toNat = 70 := rfl
  omega

theorem writable_of_letter {ch l : Char} (h : Writer.escapeLetter? ch = some l) :
    isWritable l = true := by
  unfold Writer.escapeLetter? at h
  split at h <;> first | (cases h; decide) | cases h

theorem writable_of_break {br : Char} (h : isBreak br = true) : isWritable br = true := by
  simp only [isBreak, Bool.or_eq_true, decide_eq_true_eq] at h
  rcases h with ((rfl | rfl) | rfl) | rfl <;> decide

/-- An escape holds only characters that may stand in a document. -/
theorem writable_escape (ch : Char) : ∀ x ∈ Writer.escape ch, isWritable x = true := by
  rcases escape_cases ch with ⟨l, hl, h⟩ | ⟨l, width, -, hw, -, h⟩
  · simpa [h] using ⟨by decide, writable_of_letter hl⟩
  · have hl : isWritable l = true := by
      unfold escapeWidth? at hw
      split at hw <;> first | decide | cases hw
    intro x hx
    simp only [h, List.mem_cons] at hx
    rcases hx with rfl | rfl | hx
    · decide
    · exact hl
    · exact writable_of_hex (escapeDigits_hex _ _ x hx)

theorem not_too_great (ch : Char) : ¬ 0x110000 ≤ ch.toNat := by
  have := ch.valid
  simp only [UInt32.isValidChar, Nat.isValidChar] at this
  simp only [Char.toNat]
  omega

/-- What is written for a character is read as the character. -/
theorem scanEscape_escape {c : Cursor} {ch : Char} {e r : List Char}
    (he : Writer.escape ch = '\\' :: e) (hc : c.rest = e ++ r) :
    ∃ n, scanEscape c = .ok (.ofList [ch], c.steps n) ∧ (c.steps n).rest = r := by
  rcases escape_cases ch with ⟨l, hl, h⟩ | ⟨l, width, hno, hw, hlt, h⟩
  · obtain rfl : e = [l] := by simpa [h] using he.symm
    refine ⟨1, ?_, by simp [Cursor.steps_rest, hc]⟩
    simp [scanEscape, Cursor.peek, hc, escapedChar?_of_letter hl, Cursor.steps]
  · obtain rfl : e = l :: escapeDigits width ch.toNat := by simpa [h] using he.symm
    have hstep : c.step.rest = escapeDigits width ch.toNat ++ r := by
      simp [Cursor.step_rest, hc]
    refine ⟨width + 1, ?_, ?_⟩
    · simp only [scanEscape, Cursor.peek, hc, List.cons_append, List.head?_cons, hno, hw,
        scanHex_escapeDigits hstep hlt]
      simp [not_too_great, Content.ofList, Cursor.steps, bind, Except.bind, pure, Except.pure]
    · rw [Cursor.steps, Cursor.steps_rest, hstep,
        List.drop_left' (escapeDigits_length width ch.toNat)]

/-! ## Line breaks -/

/-- What a run of line breaks is read as: one line feed is a space, and the first of several says
only that a line ends. -/
def settled : List Char → List Char
  | [] => []
  | br :: brs =>
    (if Cursor.settledBreak br ≠ '\n' then [Cursor.settledBreak br]
      else if brs.isEmpty then [' '] else []) ++ brs.map Cursor.settledBreak

/-- A line that begins with a line break or a space is no document marker. -/
theorem not_marker_ahead {c : Cursor} {brs r : List Char} {n : Nat}
    (hc : c.rest = brs ++ (List.replicate n ' ' ++ r)) (hbrs : ∀ br ∈ brs, isBreak br = true)
    (hn : 0 < n) : c.atDocumentMarker = false := by
  have hhead : ∀ ch ∈ c.rest.head?, isBreak ch = true ∨ ch = ' ' := by
    obtain ⟨m, rfl⟩ : ∃ m, n = m + 1 := ⟨n - 1, by omega⟩
    rw [hc]
    cases brs with
    | nil => simp [List.replicate_succ]
    | cons br brs => simpa using .inl (hbrs br (by simp))
  apply Cursor.not_atDocumentMarker
  · intro h
    rcases hhead _ h with h' | h' <;> exact absurd h' (by decide)
  · intro h
    rcases hhead _ h with h' | h' <;> exact absurd h' (by decide)

theorem not_blank_of_break {br : Char} (h : isBreak br = true) : isSpaceOrTab br = false := by
  simp only [isBreak, Bool.or_eq_true, decide_eq_true_eq] at h
  rcases h with ((rfl | rfl) | rfl) | rfl <;> decide

theorem scanQuotedBreaks_append {c : Cursor} {brs r : List Char} {n fuel : Nat}
    (hc : c.rest = brs ++ (List.replicate n ' ' ++ r)) (hbrs : ∀ br ∈ brs, isBreak br = true)
    (hn : 0 < n) (hr : InkOrEnd r) (hfuel : brs.length < fuel) :
    ∃ c', scanQuotedBreaks fuel c = .ok (brs.map Cursor.settledBreak, c') ∧ c'.rest = r ∧
      c.line ≤ c'.line := by
  induction brs generalizing c fuel with
  | nil =>
    obtain ⟨fuel, rfl⟩ : ∃ f, fuel = f + 1 := ⟨fuel - 1, by simp at hfuel; omega⟩
    have hskip : c.skip isSpaceOrTab = c.past n r :=
      Cursor.skip_spaces (by simpa using hc) (by decide) hr.not_blank
    refine ⟨c.past n r, ?_, rfl, Nat.le_refl _⟩
    simp only [scanQuotedBreaks, not_marker_ahead hc hbrs hn, hskip,
      Cursor.lineBreak?_of_ink (show InkOrEnd (c.past n r).rest from hr)]
    rfl
  | cons br brs ih =>
    obtain ⟨fuel, rfl⟩ : ∃ f, fuel = f + 1 := ⟨fuel - 1, by simp at hfuel; omega⟩
    have hbr : isBreak br = true := hbrs br (by simp)
    have hc' : c.rest = br :: (brs ++ (List.replicate n ' ' ++ r)) := hc
    have hskip : c.skip isSpaceOrTab = c :=
      @Cursor.skip_append c _ [] _ hc (by simp) (by simpa using not_blank_of_break hbr)
    obtain ⟨c', hread, hrest, hline⟩ :=
      @ih (c.below (brs ++ (List.replicate n ' ' ++ r))) fuel rfl
        (fun x hx => hbrs x (by simp [hx])) (by simp at hfuel; omega)
    refine ⟨c', ?_, hrest, by simp at hline; omega⟩
    simp only [scanQuotedBreaks, not_marker_ahead hc hbrs hn, hskip,
      Cursor.lineBreak?_of_break hc' hbr, hread]
    rfl

/-! ## Content between quotes -/

/-- The quote of a style. -/
def quoteMark (double : Bool) : Char := if double then '"' else '\''

/-- What stands between quotes, and what it is read as. Line breaks are followed by the indentation
of the next line, and what stands there begins with ink. -/
inductive Quoted (double : Bool) : List Char → List Char → Prop
  | nil : Quoted double [] []
  | ink {ch : Char} {cs content : List Char} : isWritable ch = true → isInk ch = true →
      ch ≠ quoteMark double → (double = true → ch ≠ '\\') → Quoted double cs content →
      Quoted double (ch :: cs) (ch :: content)
  | spaces (n : Nat) {cs content : List Char} : InkOrEnd cs → Quoted double cs content →
      Quoted double (List.replicate (n + 1) ' ' ++ cs) (List.replicate (n + 1) ' ' ++ content)
  | breaks {brs : List Char} {n : Nat} {cs content : List Char} : brs ≠ [] →
      (∀ br ∈ brs, isBreak br = true) → 0 < n → InkOrEnd cs → Quoted double cs content →
      Quoted double (brs ++ (List.replicate n ' ' ++ cs)) (settled brs ++ content)
  | escape {ch : Char} {cs content : List Char} : double = true → Quoted double cs content →
      Quoted double (Writer.escape ch ++ cs) (ch :: content)
  | escapedSpace {cs content : List Char} : double = true → Quoted double cs content →
      Quoted double ('\\' :: ' ' :: cs) (' ' :: content)
  | fold {n : Nat} {cs content : List Char} : double = true → 0 < n → InkOrEnd cs →
      Quoted double cs content →
      Quoted double ('\\' :: '\n' :: (List.replicate n ' ' ++ cs)) content

namespace Quoted

theorem isInk_quoteMark (double : Bool) : isInk (quoteMark double) = true := by
  cases double <;> decide

/-- A space in front of what does not begin with a line break. -/
theorem space {double : Bool} {cs content : List Char} (h : Quoted double cs content)
    (hcs : ∀ ch ∈ cs.head?, isBreak ch = false) : Quoted double (' ' :: cs) (' ' :: content) := by
  cases h with
  | nil => exact spaces 0 inkOrEnd_nil nil
  | ink hw hink hq hb h => exact spaces 0 (inkOrEnd_cons.mpr hink) (ink hw hink hq hb h)
  | spaces n hr h => exact spaces (n + 1) hr h
  | @breaks brs n cs content hne hbrs =>
    obtain ⟨br, brs, rfl⟩ := List.exists_cons_of_ne_nil hne
    exact absurd (hcs br (by simp)) (by simp [hbrs br])
  | @escape ch cs content hd h =>
    obtain ⟨e, he⟩ := escape_eq_cons ch
    refine spaces 0 ?_ (escape hd h)
    rw [he]
    exact inkOrEnd_cons.mpr (by decide)
  | escapedSpace hd h => exact spaces 0 (inkOrEnd_cons.mpr (by decide)) (escapedSpace hd h)
  | fold hd hn hr h => exact spaces 0 (inkOrEnd_cons.mpr (by decide)) (fold hd hn hr h)

/-- Everything between quotes may stand in a document. -/
theorem writable {double : Bool} {cs content : List Char} (h : Quoted double cs content) :
    ∀ ch ∈ cs, isWritable ch = true := by
  have hspaces : ∀ n, ∀ ch ∈ List.replicate n ' ', isWritable ch = true :=
    Cursor.forall_mem_spaces (by decide)
  induction h with
  | nil => simp
  | ink hw _ _ _ _ ih => simpa using ⟨hw, ih⟩
  | spaces n _ _ ih => exact List.forall_mem_append.mpr ⟨hspaces _, ih⟩
  | @breaks brs n _ _ _ hbrs _ _ _ ih =>
    refine List.forall_mem_append.mpr ⟨fun ch hch => ?_, List.forall_mem_append.mpr ⟨hspaces n, ih⟩⟩
    exact writable_of_break (hbrs ch hch)
  | @escape ch _ _ _ _ ih => exact List.forall_mem_append.mpr ⟨writable_escape ch, ih⟩
  | escapedSpace _ _ ih => simpa using ⟨by decide, by decide, ih⟩
  | @fold n _ _ _ _ _ _ ih =>
    have h := List.forall_mem_append.mpr ⟨hspaces n, ih⟩
    intro ch hch
    rcases List.mem_cons.mp hch with rfl | hch
    · decide
    · rcases List.mem_cons.mp hch with rfl | hch
      · decide
      · exact h ch hch

/-! ## Scanning -/

section Scanning

variable {double : Bool} {fuel : Nat} {c c' : Cursor} {r : List Char} {more : Content}

theorem scan_end (hc : c.rest = quoteMark double :: r) (hr : r.head? ≠ some '\'') :
    scanQuoted double (fuel + 1) c = .ok ({}, c.step) := by
  have hnext : c.peekAt 1 = r.head? := by
    simp [Cursor.peekAt, hc, List.head?_eq_getElem?]
  cases double with
  | true => simp [scanQuoted, Cursor.peek, hc, quoteMark]
  | false => simp [scanQuoted, Cursor.peek, hc, quoteMark, hnext, hr]

theorem scan_ink {ch : Char} (hc : c.rest = ch :: r) (hink : isInk ch = true)
    (hq : ch ≠ quoteMark double) (hb : double = true → ch ≠ '\\')
    (hmore : scanQuoted double fuel c.step = .ok (more, c')) :
    scanQuoted double (fuel + 1) c = .ok ((Content.ofList [ch]).append more, c') := by
  have hblank : (isSpaceOrTab ch || isBreak ch) = false := by
    rw [not_blank_of_ink hink, not_break_of_ink hink]
    rfl
  cases double with
  | true =>
    have hb : ch ≠ '\\' := hb rfl
    have hq : ch ≠ '"' := hq
    simp [scanQuoted, Cursor.peek, hc, hq, hb, hblank, hmore, bind, Except.bind, pure, Except.pure]
  | false =>
    have hq : ch ≠ '\'' := hq
    simp [scanQuoted, Cursor.peek, hc, hq, hblank, hmore, bind, Except.bind, pure, Except.pure]

theorem scan_blanks {ch : Char} {c₁ : Cursor} {part : List Char} (hc : c.rest = ch :: r)
    (hch : (isSpaceOrTab ch || isBreak ch) = true)
    (hblanks : scanQuotedBlanks c = .ok (part, c₁))
    (hmore : scanQuoted double fuel c₁ = .ok (more, c')) :
    scanQuoted double (fuel + 1) c = .ok ((Content.ofList part).append more, c') := by
  have hq : ch ≠ '"' := by rintro rfl; exact absurd hch (by decide)
  have hq' : ch ≠ '\'' := by rintro rfl; exact absurd hch (by decide)
  have hb : ch ≠ '\\' := by rintro rfl; exact absurd hch (by decide)
  simp [scanQuoted, Cursor.peek, hc, hq, hq', hb, hch, hblanks, hmore, bind, Except.bind, pure,
    Except.pure]

theorem scan_escape {c₁ : Cursor} {part : Content} (hc : c.rest = '\\' :: r)
    (hescape : scanEscape c.step = .ok (part, c₁))
    (hmore : scanQuoted true fuel c₁ = .ok (more, c')) :
    scanQuoted true (fuel + 1) c = .ok (part.append more, c') := by
  simp [scanQuoted, Cursor.peek, hc, hescape, hmore, bind, Except.bind, pure, Except.pure]

theorem scanQuotedBlanks_spaces {n : Nat} (hc : c.rest = List.replicate n ' ' ++ r) (hne : r ≠ [])
    (hr : InkOrEnd r) : scanQuotedBlanks c = .ok (List.replicate n ' ', c.past n r) := by
  have hend : (c.past n r).atEnd = false := by simp [Cursor.atEnd, hne]
  simp only [scanQuotedBlanks, Cursor.run_spaces hc (by decide) hr.not_blank, hend,
    Cursor.lineBreak?_of_ink (show InkOrEnd (c.past n r).rest from hr)]
  rfl

theorem scanQuotedBlanks_breaks {brs : List Char} {n : Nat}
    (hc : c.rest = brs ++ (List.replicate n ' ' ++ r)) (hne : brs ≠ [])
    (hbrs : ∀ br ∈ brs, isBreak br = true) (hn : 0 < n) (hr : InkOrEnd r) :
    ∃ c', scanQuotedBlanks c = .ok (settled brs, c') ∧ c'.rest = r ∧ c.line ≤ c'.line := by
  obtain ⟨br, brs, rfl⟩ := List.exists_cons_of_ne_nil hne
  have hbr : isBreak br = true := hbrs br (by simp)
  have hc' : c.rest = br :: (brs ++ (List.replicate n ' ' ++ r)) := hc
  have hrun : c.run isSpaceOrTab = ([], c) :=
    @Cursor.run_append c _ [] _ hc (by simp) (by simpa using not_blank_of_break hbr)
  obtain ⟨c', hread, hrest, hline⟩ := @scanQuotedBreaks_append
    (c.below (brs ++ (List.replicate n ' ' ++ r))) brs r n
    ((c.below (brs ++ (List.replicate n ' ' ++ r))).rest.length + 1) rfl
    (fun x hx => hbrs x (by simp [hx])) hn hr (by rw [Cursor.below_rest, List.length_append]; omega)
  refine ⟨c', ?_, hrest, by simp at hline; omega⟩
  have hend : c.atEnd = false := by simp [Cursor.atEnd, hc']
  simp only [scanQuotedBlanks, hrun, hend, Cursor.lineBreak?_of_break hc' hbr, hread]
  simp [settled, expect, bind, Except.bind, pure, Except.pure]

theorem scanEscape_fold {n : Nat} (hc : c.rest = '\n' :: (List.replicate n ' ' ++ r)) (hn : 0 < n)
    (hr : InkOrEnd r) :
    ∃ c', scanEscape c = .ok ({}, c') ∧ c'.rest = r ∧ c.line ≤ c'.line := by
  obtain ⟨c', hread, hrest, hline⟩ := @scanQuotedBreaks_append
    (c.below (List.replicate n ' ' ++ r)) [] r n
    ((c.below (List.replicate n ' ' ++ r)).rest.length + 1) rfl (by simp) hn hr (by simp)
  refine ⟨c', ?_, hrest, by simp at hline; omega⟩
  simp only [scanEscape, Cursor.peek, hc, List.head?_cons,
    Cursor.lineBreak?_of_break hc (show isBreak '\n' = true by decide), hread]
  rfl

end Scanning

theorem append_ofList (xs ys : List Char) :
    (Content.ofList xs).append (.ofList ys) = .ofList (xs ++ ys) := by
  simp [Content.append, Content.ofList]

theorem inkOrEnd_append_quote {double : Bool} {cs r : List Char} (h : InkOrEnd cs) :
    InkOrEnd (cs ++ quoteMark double :: r) := by
  cases cs with
  | nil => exact inkOrEnd_cons.mpr (isInk_quoteMark double)
  | cons ch cs => exact inkOrEnd_cons.mpr (inkOrEnd_cons.mp h)

/-- A scanner behind the opening quote takes the content and stops behind the closing quote. -/
theorem reads {double : Bool} {cs content : List Char} (h : Quoted double cs content)
    {fuel : Nat} {c : Cursor} {r : List Char} (hfuel : cs.length < fuel)
    (hc : c.rest = cs ++ quoteMark double :: r) (hr : r.head? ≠ some '\'') :
    ∃ c', scanQuoted double fuel c = .ok (.ofList content, c') ∧ c'.rest = r ∧
      c.line ≤ c'.line := by
  obtain ⟨fuel, rfl⟩ : ∃ f, fuel = f + 1 := ⟨fuel - 1, by omega⟩
  induction h generalizing fuel c with
  | nil =>
    refine ⟨c.step, scan_end hc hr, ?_, Cursor.line_le_step c⟩
    simp [Cursor.step_rest, hc]
  | @ink ch cs content _ hink hq hb _ ih =>
    obtain ⟨fuel, rfl⟩ : ∃ f, fuel = f + 1 := ⟨fuel - 1, by simp at hfuel; omega⟩
    obtain ⟨c', hmore, hrest, hline⟩ := @ih c.step (by simp [Cursor.step_rest, hc]) fuel
      (by simp at hfuel; omega)
    have := Cursor.line_le_step c
    exact ⟨c', by rw [scan_ink hc hink hq hb hmore, append_ofList]; rfl, hrest, by omega⟩
  | @spaces n cs content hcs _ ih =>
    obtain ⟨fuel, rfl⟩ : ∃ f, fuel = f + 1 := ⟨fuel - 1, by simp at hfuel; omega⟩
    have hc' : c.rest = List.replicate (n + 1) ' ' ++ (cs ++ quoteMark double :: r) := by simp [hc]
    have hblanks := scanQuotedBlanks_spaces hc' (by simp) (inkOrEnd_append_quote hcs)
    obtain ⟨c', hmore, hrest, hline⟩ := @ih (c.past (n + 1) (cs ++ quoteMark double :: r)) rfl fuel
      (by simp at hfuel; omega)
    refine ⟨c', ?_, hrest, hline⟩
    rw [scan_blanks (by simpa [List.replicate_succ] using hc') (by decide) hblanks hmore,
      append_ofList]
  | @breaks brs n cs content hne hbrs hn hcs _ ih =>
    have hc' : c.rest = brs ++ (List.replicate n ' ' ++ (cs ++ quoteMark double :: r)) := by
      simp [hc]
    obtain ⟨c₁, hblanks, hrest₁, hline₁⟩ :=
      scanQuotedBlanks_breaks hc' hne hbrs hn (inkOrEnd_append_quote hcs)
    have hlen : 0 < brs.length := List.length_pos_iff.mpr hne
    obtain ⟨fuel, rfl⟩ : ∃ f, fuel = f + 1 := ⟨fuel - 1, by simp at hfuel; omega⟩
    obtain ⟨c', hmore, hrest, hline⟩ := @ih c₁ hrest₁ fuel (by simp at hfuel; omega)
    obtain ⟨br, brs, rfl⟩ := List.exists_cons_of_ne_nil hne
    refine ⟨c', ?_, hrest, by omega⟩
    rw [scan_blanks (by simpa using hc') (by simp [hbrs br]) hblanks hmore, append_ofList]
  | @escape ch cs content hd _ ih =>
    subst hd
    obtain ⟨e, he⟩ := escape_eq_cons ch
    have hc' : c.rest = '\\' :: (e ++ (cs ++ quoteMark true :: r)) := by simp [hc, he]
    obtain ⟨n, hescape, hrest₁⟩ :=
      scanEscape_escape he (show c.step.rest = e ++ (cs ++ quoteMark true :: r) by
        simp [Cursor.step_rest, hc'])
    obtain ⟨fuel, rfl⟩ : ∃ f, fuel = f + 1 := ⟨fuel - 1, by simp [he] at hfuel; omega⟩
    obtain ⟨c', hmore, hrest, hline⟩ := @ih _ hrest₁ fuel (by simp [he] at hfuel; omega)
    have h₁ := Cursor.line_le_step c
    have h₂ := Cursor.line_le_steps n c.step
    exact ⟨c', by rw [scan_escape hc' hescape hmore, append_ofList]; rfl, hrest, by omega⟩
  | @escapedSpace cs content hd _ ih =>
    subst hd
    obtain ⟨fuel, rfl⟩ : ∃ f, fuel = f + 1 := ⟨fuel - 1, by simp at hfuel; omega⟩
    have hstep : c.step.rest = ' ' :: (cs ++ quoteMark true :: r) := by
      simp [Cursor.step_rest, hc]
    have hescape : scanEscape c.step = .ok (.ofList [' '], c.step.step) := by
      simp [scanEscape, Cursor.peek, hstep, show escapedChar? ' ' = some ' ' from rfl]
    obtain ⟨c', hmore, hrest, hline⟩ := @ih c.step.step (by simp [Cursor.step_rest, hc]) fuel
      (by simp at hfuel; omega)
    have h₁ := Cursor.line_le_step c
    have h₂ := Cursor.line_le_step c.step
    exact ⟨c', by rw [scan_escape hc hescape hmore, append_ofList]; rfl, hrest, by omega⟩
  | @fold n cs content hd hn hcs _ ih =>
    subst hd
    obtain ⟨fuel, rfl⟩ : ∃ f, fuel = f + 1 := ⟨fuel - 1, by simp at hfuel; omega⟩
    obtain ⟨c₁, hescape, hrest₁, hline₁⟩ :=
      @scanEscape_fold c.step (cs ++ quoteMark true :: r) n (by simp [Cursor.step_rest, hc]) hn
        (inkOrEnd_append_quote hcs)
    obtain ⟨c', hmore, hrest, hline⟩ := @ih c₁ hrest₁ fuel (by simp at hfuel; omega)
    have h₁ := Cursor.line_le_step c
    refine ⟨c', ?_, hrest, by omega⟩
    rw [scan_escape hc hescape hmore]
    rfl

end Quoted

end RedisGateway.Yaml
