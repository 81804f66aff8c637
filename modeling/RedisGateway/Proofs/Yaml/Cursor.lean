import Mathlib.Data.List.Basic
import RedisGateway.Yaml.Cursor

/-!
Going over a text whose form is known: a stretch without line breaks moves a cursor to the right, a
line break moves it to the margin of the next line, and a run of characters ends where its class
does.
-/

namespace RedisGateway.Yaml

/-- A character that takes one column of its line. -/
def isInline (ch : Char) : Bool := !isBreak ch && ch ≠ byteOrderMark

/-- Neither a space, nor a tab, nor a line break. -/
def isInk (ch : Char) : Bool := !isSpaceOrTab ch && !isBreak ch

/-- A character that may stand in a document and is no carriage return. -/
def isWritable (ch : Char) : Bool := isAllowed ch && ch ≠ '\r'

theorem not_break_of_ink {ch : Char} (h : isInk ch = true) : isBreak ch = false := by
  simp only [isInk, Bool.and_eq_true, Bool.not_eq_true'] at h
  exact h.2

theorem not_blank_of_ink {ch : Char} (h : isInk ch = true) : isSpaceOrTab ch = false := by
  simp only [isInk, Bool.and_eq_true, Bool.not_eq_true'] at h
  exact h.1

theorem ne_space_of_ink {ch : Char} (h : isInk ch = true) : ch ≠ ' ' := by
  rintro rfl
  exact absurd h (by decide)

/-- A text goes on with ink, or ends. -/
def InkOrEnd (cs : List Char) : Prop := ∀ ch ∈ cs.head?, isInk ch = true

@[simp] theorem inkOrEnd_nil : InkOrEnd [] := by simp [InkOrEnd]

@[simp] theorem inkOrEnd_cons {ch : Char} {cs : List Char} :
    InkOrEnd (ch :: cs) ↔ isInk ch = true := by
  simp [InkOrEnd]

/-- Ink ends a run of spaces. -/
theorem InkOrEnd.not_space {cs : List Char} (h : InkOrEnd cs) :
    ∀ ch ∈ cs.head?, decide (ch = ' ') = false :=
  fun ch hch => by simpa using ne_space_of_ink (h ch hch)

/-- Ink ends a run of spaces and tabs. -/
theorem InkOrEnd.not_blank {cs : List Char} (h : InkOrEnd cs) :
    ∀ ch ∈ cs.head?, isSpaceOrTab ch = false :=
  fun ch hch => not_blank_of_ink (h ch hch)

theorem takeWhile_append_stop {p : Char → Bool} {w r : List Char} (hw : ∀ ch ∈ w, p ch = true)
    (hr : ∀ ch ∈ r.head?, p ch = false) : (w ++ r).takeWhile p = w := by
  rw [List.takeWhile_append_of_pos hw]
  cases r with
  | nil => simp
  | cons ch r => simp [hr ch (by simp)]

namespace Cursor

/-! ## Lines -/

/-- The place behind `n` characters of the same line, in front of `r`. -/
def past (c : Cursor) (n : Nat) (r : List Char) : Cursor :=
  { rest := r, index := c.index + n, line := c.line, column := c.column + n }

/-- The margin of the next line, in front of `r`. -/
def below (c : Cursor) (r : List Char) : Cursor :=
  { rest := r, index := c.index + 1, line := c.line + 1, column := 0 }

@[simp] theorem past_rest (c : Cursor) (n : Nat) (r : List Char) : (c.past n r).rest = r := rfl
@[simp] theorem past_index (c : Cursor) (n : Nat) (r : List Char) :
    (c.past n r).index = c.index + n := rfl
@[simp] theorem past_line (c : Cursor) (n : Nat) (r : List Char) : (c.past n r).line = c.line := rfl
@[simp] theorem past_column (c : Cursor) (n : Nat) (r : List Char) :
    (c.past n r).column = c.column + n := rfl
@[simp] theorem below_rest (c : Cursor) (r : List Char) : (c.below r).rest = r := rfl
@[simp] theorem below_line (c : Cursor) (r : List Char) : (c.below r).line = c.line + 1 := rfl
@[simp] theorem below_column (c : Cursor) (r : List Char) : (c.below r).column = 0 := rfl
@[simp] theorem past_past (c : Cursor) (m n : Nat) (q r : List Char) :
    (c.past m q).past n r = c.past (m + n) r := by
  simp [past, Nat.add_assoc]

theorem step_inline {c : Cursor} {ch : Char} {r : List Char} (hc : c.rest = ch :: r)
    (hch : isInline ch = true) : c.step = c.past 1 r := by
  simp only [isInline, Bool.and_eq_true, Bool.not_eq_true', decide_eq_true_eq] at hch
  simp [step, hc, hch, past]

theorem step_break {c : Cursor} {br : Char} {r : List Char} (hc : c.rest = br :: r)
    (hbr : isBreak br = true) : c.step = c.below r := by
  simp [step, hc, hbr, below]

theorem step_rest (c : Cursor) : c.step.rest = c.rest.tail := by
  unfold step
  split
  · simp_all
  · split <;> simp_all

theorem line_le_step (c : Cursor) : c.line ≤ c.step.line := by
  unfold step
  split
  · exact Nat.le_refl _
  · split <;> simp

theorem steps_rest (n : Nat) (c : Cursor) : (c.steps n).rest = c.rest.drop n := by
  induction n generalizing c with
  | zero => rfl
  | succ n ih => rw [steps, ih, step_rest, List.drop_tail]

theorem line_le_steps (n : Nat) (c : Cursor) : c.line ≤ (c.steps n).line := by
  induction n generalizing c with
  | zero => exact Nat.le_refl _
  | succ n ih => exact Nat.le_trans (line_le_step c) (ih c.step)

theorem past_zero {c : Cursor} {r : List Char} (hc : c.rest = r) : c.past 0 r = c := by
  subst hc
  rfl

theorem steps_inline {c : Cursor} {w r : List Char} (hc : c.rest = w ++ r)
    (hw : ∀ ch ∈ w, isInline ch = true) : c.steps w.length = c.past w.length r := by
  induction w generalizing c with
  | nil => exact (past_zero hc).symm
  | cons ch w ih =>
    have hstep : c.step = c.past 1 (w ++ r) := step_inline hc (hw ch (by simp))
    rw [List.length_cons, steps, hstep, ih rfl fun x hx => hw x (by simp [hx]), past_past,
      Nat.add_comm 1]

/-! ## Runs -/

theorem run_append {c : Cursor} {p : Char → Bool} {w r : List Char} (hc : c.rest = w ++ r)
    (hw : ∀ ch ∈ w, p ch = true) (hr : ∀ ch ∈ r.head?, p ch = false) :
    c.run p = (w, c.steps w.length) := by
  simp only [run, hc, takeWhile_append_stop hw hr]

theorem skip_append {c : Cursor} {p : Char → Bool} {w r : List Char} (hc : c.rest = w ++ r)
    (hw : ∀ ch ∈ w, p ch = true) (hr : ∀ ch ∈ r.head?, p ch = false) :
    c.skip p = c.steps w.length := by
  rw [skip, run_append hc hw hr]

theorem isInline_space : isInline ' ' = true := by decide

theorem forall_mem_spaces {p : Char → Bool} (hp : p ' ' = true) (n : Nat) :
    ∀ ch ∈ List.replicate n ' ', p ch = true := by
  intro ch hch
  rw [(List.mem_replicate.mp hch).2]
  exact hp

theorem steps_spaces {c : Cursor} {n : Nat} {r : List Char}
    (hc : c.rest = List.replicate n ' ' ++ r) : c.steps n = c.past n r := by
  have h := steps_inline hc (forall_mem_spaces isInline_space n)
  rwa [List.length_replicate] at h

theorem run_spaces {c : Cursor} {p : Char → Bool} {n : Nat} {r : List Char}
    (hc : c.rest = List.replicate n ' ' ++ r) (hp : p ' ' = true)
    (hr : ∀ ch ∈ r.head?, p ch = false) :
    c.run p = (List.replicate n ' ', c.past n r) := by
  rw [run_append hc (forall_mem_spaces hp n) hr, List.length_replicate, steps_spaces hc]

theorem skip_spaces {c : Cursor} {p : Char → Bool} {n : Nat} {r : List Char}
    (hc : c.rest = List.replicate n ' ' ++ r) (hp : p ' ' = true)
    (hr : ∀ ch ∈ r.head?, p ch = false) : c.skip p = c.past n r := by
  rw [skip, run_spaces hc hp hr]

/-! ## Line breaks -/

/-- A line break as it counts in a scalar. -/
def settledBreak (br : Char) : Char := if br = '\x85' then '\n' else br

theorem lineBreak?_of_break {c : Cursor} {br : Char} {r : List Char} (hc : c.rest = br :: r)
    (hbr : isBreak br = true) : c.lineBreak? = some (settledBreak br, c.below r) := by
  have hstep := step_break hc hbr
  simp only [lineBreak?, peek, hc, List.head?_cons, hstep, hbr, if_true, settledBreak]
  by_cases h : br = '\n'
  · simp [h]
  · by_cases h' : br = '\x85' <;> simp [h, h']

theorem lineBreak?_of_ink {c : Cursor} (h : InkOrEnd c.rest) : c.lineBreak? = none := by
  cases hc : c.rest with
  | nil => simp [lineBreak?, peek, hc]
  | cons ch r =>
    have hnot : isBreak ch = false := not_break_of_ink (by simpa [hc] using h)
    have hn : ch ≠ '\n' := by rintro rfl; exact absurd hnot (by decide)
    have hn' : ch ≠ '\x85' := by rintro rfl; exact absurd hnot (by decide)
    simp [lineBreak?, peek, hc, hnot, hn, hn']

/-- A line that does not begin like a document marker. -/
theorem not_atDocumentMarker {c : Cursor} (h : c.rest.head? ≠ some '-')
    (h' : c.rest.head? ≠ some '.') : c.atDocumentMarker = false := by
  cases hc : c.rest with
  | nil => simp [atDocumentMarker, hasMarker, hc]
  | cons ch r =>
    have hn : ¬ '-' = ch := by rintro rfl; simp [hc] at h
    have hn' : ¬ '.' = ch := by rintro rfl; simp [hc] at h'
    simp [atDocumentMarker, hasMarker, hc, List.isPrefixOf, hn, hn']

end Cursor
end RedisGateway.Yaml
