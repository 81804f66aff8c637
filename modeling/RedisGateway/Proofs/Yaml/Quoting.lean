import RedisGateway.Proofs.Yaml.Quoted
import RedisGateway.Proofs.Yaml.Runs

/-!
Writing texts between quotes. What is written between double quotes is read as the text
(`putDouble_quoted`); what is written between single quotes as the text in which each run of line
breaks has settled (`putSingle_quoted`), which is the text itself unless a next-line character is in
it (`settledText_eq_iff`).
-/

namespace RedisGateway.Yaml

open Writer (runs isSpaces isBreaks isSpecial isSafe putSingle putDouble width Pen)

/-! ## Pens -/

@[simp] theorem put_written (p : Pen) (cs : List Char) :
    (p.put cs).written = cs.reverse ++ p.written := rfl

@[simp] theorem put_column (p : Pen) (cs : List Char) :
    (p.put cs).column = p.column + cs.length := rfl

@[simp] theorem newLine_written (p : Pen) (indent : Nat) :
    (p.newLine indent).written = List.replicate indent ' ' ++ '\n' :: p.written := rfl

@[simp] theorem newLine_column (p : Pen) (indent : Nat) : (p.newLine indent).column = indent := rfl

@[simp] theorem putBreaks_written (p : Pen) (indent : Nat) (brs : List Char) :
    (p.putBreaks indent brs).written = List.replicate indent ' ' ++ brs.reverse ++ p.written := rfl

/-! ## Between single quotes -/

/-- What a run between single quotes is read as. -/
def settledRun (run : List Char) : List Char := if isBreaks run then settled run else run

/-- What a text between single quotes is read as. -/
def settledText (cs : List Char) : List Char := (runs cs).flatMap settledRun

/-- A character that is not special is written as it is. -/
theorem writable_of_not_special {ch : Char} (h : isSpecial ch = false) : isWritable ch = true := by
  have hvalid : ch.toNat < 0xD800 ∨ 0xDFFF < ch.toNat ∧ ch.toNat < 0x110000 := by
    have := ch.valid
    simp only [UInt32.isValidChar, Nat.isValidChar] at this
    simp only [Char.toNat]
    omega
  simp only [isSpecial, Bool.not_eq_false', Bool.or_eq_true, Bool.and_eq_true,
    decide_eq_true_eq] at h
  have hr : ch ≠ '\r' := by
    rintro rfl
    exact absurd h (by decide)
  simp only [isWritable, isAllowed, Bool.and_eq_true, Bool.or_eq_true, decide_eq_true_eq]
  refine ⟨?_, hr⟩
  rcases h with ((rfl | h) | rfl) | h
  · decide
  · omega
  · decide
  · omega

theorem ink_of_not_special {ch : Char} (h : isSpecial ch = false) (hsp : ch ≠ ' ')
    (hbr : isBreak ch = false) : isInk ch = true := by
  have htab : ch ≠ '\t' := by
    rintro rfl
    exact absurd h (by decide)
  simp [isInk, isSpaceOrTab, hsp, htab, hbr]

namespace Quoted

/-- A word between quotes stands for itself. -/
theorem word {double : Bool} {w cs content : List Char}
    (hw : ∀ ch ∈ w, isWritable ch = true ∧ isInk ch = true ∧ ch ≠ quoteMark double)
    (hb : double = true → '\\' ∉ w) (h : Quoted double cs content) :
    Quoted double (w ++ cs) (w ++ content) := by
  induction w with
  | nil => exact h
  | cons ch w ih =>
    obtain ⟨hwrite, hink, hq⟩ := hw ch (by simp)
    refine ink hwrite hink hq (fun hd hch => hb hd (by simp [hch])) ?_
    exact ih (fun x hx => hw x (by simp [hx])) fun hd hmem => hb hd (by simp [hmem])

/-- A fold that stands for a space. -/
theorem break_space {double : Bool} {indent : Nat} {cs content : List Char} (hpos : 0 < indent)
    (hink : InkOrEnd cs) (h : Quoted double cs content) :
    Quoted double (['\n'] ++ (List.replicate indent ' ' ++ cs)) (' ' :: content) :=
  breaks (by simp) (by simp [show isBreak '\n' = true from rfl]) hpos hink h

end Quoted

/-- What is written between single quotes. -/
theorem putSingle_quoted {indent : Nat} (hindent : 0 < indent) {rs : List (List Char)}
    (hparted : Parted rs)
    (hplain : ∀ run ∈ rs, ∀ ch ∈ run, isSpecial ch = false ∧ ch ≠ '\'') (p : Pen) (first : Bool) :
    ∃ out, (putSingle indent first p rs).written = out.reverse ++ p.written ∧
      Quoted false out (rs.flatMap settledRun) ∧
      ((∀ run ∈ rs.head?, IsWord run) → InkOrEnd out) := by
  induction rs generalizing p first with
  | nil => exact ⟨[], by simp [putSingle], .nil, by simp⟩
  | cons run rest ih =>
    have hrest : ∀ r ∈ rest, ∀ ch ∈ r, isSpecial ch = false ∧ ch ≠ '\'' :=
      fun r hr => hplain r (by simp [hr])
    rcases hparted.1 with hword | ⟨hrun | hrun, hnext⟩
    · obtain ⟨out, hwritten, hquoted, -⟩ := ih hparted.2 hrest (p.put run) false
      have hchars : ∀ ch ∈ run, isWritable ch = true ∧ isInk ch = true ∧ ch ≠ '\'' :=
        fun ch hch =>
          have h := hplain run (by simp) ch hch
          ⟨writable_of_not_special h.1,
            ink_of_not_special h.1 (hword.2 ch hch).1 (hword.2 ch hch).2, h.2⟩
      refine ⟨run ++ out, ?_, ?_, fun _ => ?_⟩
      · simp [putSingle, hword.isSpaces, hword.isBreaks, hwritten]
      · rw [List.flatMap_cons, settledRun, if_neg (by simp [hword.isBreaks])]
        exact hquoted.word hchars (by simp)
      · obtain ⟨ch, cs, rfl⟩ := List.exists_cons_of_ne_nil hword.1
        exact inkOrEnd_cons.mpr (hchars ch (by simp)).2.1
    · have hsettled : settledRun run = run := by
        obtain ⟨n, rfl⟩ := hrun
        simp [settledRun, Writer.isBreaks, List.replicate_succ, show isBreak ' ' = false from rfl]
      have hnot : ¬ ∀ r ∈ (run :: rest).head?, IsWord r := fun hhead => by
        have := (hhead run (by simp)).isSpaces
        simp [hrun.isSpaces] at this
      simp only [List.flatMap_cons, hsettled]
      by_cases hfold : (run.length = 1 && width < p.column && !first && !rest.isEmpty) = true
      · -- a single space at which the line is folded: the line break stands for it
        obtain ⟨out, hwritten, hquoted, hink⟩ := ih hparted.2 hrest (p.newLine indent) false
        have hone : run = [' '] := by
          obtain ⟨n, rfl⟩ := hrun
          simp only [Bool.and_eq_true, decide_eq_true_eq, List.length_replicate] at hfold
          simp [show n = 0 by omega]
        refine ⟨['\n'] ++ (List.replicate indent ' ' ++ out), ?_, ?_, fun h => absurd h hnot⟩
        · rw [putSingle, if_pos hrun.isSpaces, if_pos hfold, hwritten]
          simp
        · rw [hone]
          exact hquoted.break_space hindent (hink hnext)
      · obtain ⟨out, hwritten, hquoted, hink⟩ := ih hparted.2 hrest (p.put run) false
        refine ⟨run ++ out, ?_, ?_, fun h => absurd h hnot⟩
        · rw [putSingle, if_pos hrun.isSpaces, if_neg hfold, hwritten]
          simp
        · obtain ⟨n, rfl⟩ := hrun
          exact .spaces n (hink hnext) hquoted
    · obtain ⟨out, hwritten, hquoted, hink⟩ := ih hparted.2 hrest (p.putBreaks indent run) false
      refine ⟨run ++ (List.replicate indent ' ' ++ out), ?_, ?_, ?_⟩
      · simp [putSingle, hrun.isSpaces, hrun.isBreaks, hwritten]
      · rw [List.flatMap_cons, settledRun, if_pos hrun.isBreaks]
        exact .breaks hrun.1 hrun.2 hindent (hink hnext) hquoted
      · intro hhead
        have hword : IsWord run := hhead run (by simp)
        have := hword.isBreaks
        simp [hrun.isBreaks] at this

theorem settled_self {brs : List Char} (hbrs : ∀ br ∈ brs, br ≠ '\n' ∧ br ≠ '\x85') :
    settled brs = brs := by
  have hself : ∀ br ∈ brs, Cursor.settledBreak br = br := fun br hbr => by
    simp [Cursor.settledBreak, (hbrs br hbr).2]
  cases brs with
  | nil => rfl
  | cons br brs =>
    have hmap : brs.map Cursor.settledBreak = brs := by
      rw [List.map_congr_left fun x hx => hself x (by simp [hx]), List.map_id']
    simp [settled, hself br (by simp), (hbrs br (by simp)).1, hmap]

theorem nextLine_notMem_settled (brs : List Char) : '\x85' ∉ settled brs := by
  have hbreak : ∀ br, Cursor.settledBreak br ≠ '\x85' := fun br => by
    unfold Cursor.settledBreak
    split
    · decide
    · assumption
  cases brs with
  | nil => simp [settled]
  | cons br brs =>
    have hmap : '\x85' ∉ brs.map Cursor.settledBreak := fun hmem => by
      obtain ⟨x, -, hx⟩ := List.mem_map.mp hmem
      exact hbreak x hx
    simp only [settled, List.mem_append, not_or]
    refine ⟨?_, hmap⟩
    split
    · simpa using (hbreak br).symm
    · split <;> simp

/-- A text between single quotes is read as itself unless a next-line character is in it. Line feeds
do not stand between single quotes. -/
theorem settledText_eq_iff {cs : List Char} (hn : '\n' ∉ cs) :
    settledText cs = cs ↔ '\x85' ∉ cs := by
  constructor
  · intro h hmem
    rw [← h, settledText, List.mem_flatMap] at hmem
    obtain ⟨run, hrun, hmem⟩ := hmem
    unfold settledRun at hmem
    split at hmem
    · exact nextLine_notMem_settled run hmem
    · next hnot =>
      rcases run_cases hrun with h | h | h
      · obtain ⟨n, rfl⟩ := h
        exact absurd (List.mem_replicate.mp hmem).2 (by decide)
      · exact hnot h.isBreaks
      · exact absurd (h.2 _ hmem).2 (by decide)
  · intro hx
    have hself : ∀ run ∈ runs cs, settledRun run = run := fun run hrun => by
      have hsub : ∀ ch ∈ run, ch ∈ cs := fun ch hch => by
        rw [← runs_flatten cs]
        exact List.mem_flatten_of_mem hrun hch
      have hchars : ∀ br ∈ run, br ≠ '\n' ∧ br ≠ '\x85' := fun br hbr =>
        ⟨fun h => hn (h ▸ hsub br hbr), fun h => hx (h ▸ hsub br hbr)⟩
      simp [settledRun, settled_self hchars]
    rw [settledText, List.flatMap_congr hself, List.flatMap_id', runs_flatten]

/-! ## Between double quotes -/

theorem writable_of_safe {ch : Char} (h : isSafe ch = true) : isWritable ch = true := by
  simp only [isSafe, Bool.and_eq_true, Bool.or_eq_true, decide_eq_true_eq] at h
  have hr : ch ≠ '\r' := by
    rintro rfl
    exact absurd h.2 (by decide)
  simp only [isWritable, isAllowed, Bool.and_eq_true, Bool.or_eq_true, decide_eq_true_eq]
  refine ⟨?_, hr⟩
  omega

theorem safe_spec {ch : Char} (h : isSafe ch = true) :
    ch ≠ '"' ∧ ch ≠ '\\' ∧ ch ≠ '\t' ∧ isBreak ch = false := by
  refine ⟨?_, ?_, ?_, ?_⟩
  · rintro rfl; exact absurd h (by decide)
  · rintro rfl; exact absurd h (by decide)
  · rintro rfl; exact absurd h (by decide)
  · rw [← Bool.not_eq_true]
    intro hbr
    simp only [isBreak, Bool.or_eq_true, decide_eq_true_eq] at hbr
    rcases hbr with ((rfl | rfl) | rfl) | rfl <;> exact absurd h (by decide)

theorem ink_of_safe {ch : Char} (h : isSafe ch = true) (hsp : ch ≠ ' ') : isInk ch = true := by
  obtain ⟨-, -, htab, hbr⟩ := safe_spec h
  simp [isInk, isSpaceOrTab, hsp, htab, hbr]

@[simp] theorem fold_written (p : Pen) (indent : Nat) (marked : Bool) :
    (p.fold indent marked).written =
      List.replicate indent ' ' ++ '\n' :: ((if marked then ['\\'] else []) ++ p.written) := by
  cases marked <;> simp [Pen.fold]

@[simp] theorem fold_column (p : Pen) (indent : Nat) (marked : Bool) :
    (p.fold indent marked).column = indent := by
  cases marked <;> simp [Pen.fold]

section Steps

variable {indent : Nat} {p : Pen} {before : Option Char} {held rest : List Char} {c : Char}

/-- A line is folded in front of a character that stands for itself. -/
def foldsAt (p : Pen) (before : Option Char) (held : List Char) (c : Char) (rest : List Char) :
    Bool :=
  before.isSome && !rest.isEmpty && (c = ' ' || held.isEmpty) && width < p.column + held.length

/-- A fold has to be marked. -/
def isMarked (before : Option Char) (held rest : List Char) : Bool :=
  held.isEmpty || before = some ' ' || rest.head? = some ' '

/-- A line is folded behind an escape. -/
def foldsBehind (p : Pen) (before : Option Char) (rest : List Char) : Bool :=
  before.isSome && !rest.isEmpty && width + 1 < p.column

theorem putDouble_hold (hs : isSafe c = true) (hf : foldsAt p before held c rest = false) :
    putDouble indent p before held false (c :: rest) =
      putDouble indent p (some c) (c :: held) false rest := by
  rw [putDouble, if_neg (by simp), if_pos hs]
  exact if_neg (by simpa [foldsAt] using hf)

theorem putDouble_fold (hs : isSafe c = true) (hf : foldsAt p before held c rest = true) :
    putDouble indent p before held false (c :: rest) =
      let marked := isMarked before held rest
      let p := (p.put held.reverse).fold indent marked
      if c ≠ ' ' then putDouble indent p (some c) [c] false rest
      else if marked then putDouble indent (p.put ['\\']) (some c) [c] false rest
      else putDouble indent p (some c) [] false rest := by
  rw [putDouble, if_neg (by simp), if_pos hs]
  exact if_pos hf

theorem putDouble_escape (hs : isSafe c = false)
    (hf : foldsBehind ((p.put held.reverse).put (Writer.escape c)) before rest = false) :
    putDouble indent p before held false (c :: rest) =
      putDouble indent ((p.put held.reverse).put (Writer.escape c)) (some c) [] false rest := by
  rw [putDouble, if_neg (by simp), if_neg (by simp [hs])]
  exact if_neg (by simpa [foldsBehind] using hf)

theorem putDouble_escape_fold (hs : isSafe c = false)
    (hf : foldsBehind ((p.put held.reverse).put (Writer.escape c)) before rest = true) :
    putDouble indent p before held false (c :: rest) =
      let p := (p.put held.reverse).put (Writer.escape c)
      if Writer.spaceFolds c rest then putDouble indent (p.fold indent false) (some c) [] true rest
      else
        let p := p.fold indent true
        putDouble indent (if rest.head? = some ' ' then p.put ['\\'] else p) (some c) [] false
          rest := by
  rw [putDouble, if_neg (by simp), if_neg (by simp [hs])]
  exact if_pos hf

theorem spaceFolds_cases {cs : List Char} (h : Writer.spaceFolds c cs = true) :
    ∃ d r, cs = ' ' :: d :: r ∧ d ≠ ' ' := by
  unfold Writer.spaceFolds at h
  split at h
  · next d r =>
    simp only [Bool.and_eq_true, decide_eq_true_eq] at h
    exact ⟨d, r, rfl, h.1.1⟩
  · cases h

/-- The space for which a fold stands is not written. -/
theorem putDouble_folded :
    putDouble indent p before [] true (c :: rest) = putDouble indent p (some c) [] false rest := by
  rw [putDouble, if_pos rfl]

/-- A space within the width is held like any other character. -/
theorem putDouble_space (h : p.column ≤ width) :
    putDouble indent p before [] false (' ' :: rest) =
      putDouble indent p (some ' ') [' '] false rest :=
  putDouble_hold (by decide) (by simp [foldsAt, Nat.not_lt.mpr h])

end Steps

/-- What writing the characters that are left adds behind those that are held: it is read as the
characters that are left, does not begin with a line break behind a space, and begins with ink
within the width, unless a space comes first. -/
structure DoubleOutput (p : Pen) (before : Option Char) (held cs out : List Char) : Prop where
  quoted : Quoted true out cs
  behind : before = some ' ' → ∀ ch ∈ out.head?, isBreak ch = false
  fits : p.column + held.length ≤ width → cs.head? ≠ some ' ' → InkOrEnd out

/-- Writing the characters that are left adds something that is read as them. -/
def WritesDouble (indent : Nat) (p : Pen) (before : Option Char) (held cs : List Char) : Prop :=
  ∃ out, (putDouble indent p before held false cs).written = out.reverse ++ (held ++ p.written) ∧
    DoubleOutput p before held cs out

section Cases

variable {indent : Nat} {p : Pen} {before : Option Char} {held rest out cs : List Char} {c : Char}

/-- A marked fold with an escaped space behind it. -/
theorem Quoted.fold_space (hpos : 0 < indent) (h : Quoted true out cs) :
    Quoted true ('\\' :: '\n' :: (List.replicate indent ' ' ++ '\\' :: ' ' :: out)) (' ' :: cs) :=
  .fold rfl hpos (inkOrEnd_cons.mpr (by decide)) (.escapedSpace rfl h)

/-- A backslash is no line break, and ink. -/
theorem DoubleOutput.of_backslash (h : Quoted true ('\\' :: out) cs) :
    DoubleOutput p before held cs ('\\' :: out) where
  quoted := h
  behind _ ch hch := by
    obtain rfl : '\\' = ch := by simpa using hch
    decide
  fits _ _ := inkOrEnd_cons.mpr (by decide)

/-- A character that is held stands for itself. -/
theorem writesDouble_hold (hsafe : isSafe c = true) (hfold : foldsAt p before held c rest = false)
    (h : WritesDouble indent p (some c) (c :: held) rest) :
    WritesDouble indent p before held (c :: rest) := by
  obtain ⟨hq, hb, -, hbr⟩ := safe_spec hsafe
  obtain ⟨out, hwritten, hout⟩ := h
  rw [WritesDouble, putDouble_hold hsafe hfold]
  refine ⟨c :: out, by simp [hwritten], ?_, ?_, ?_⟩
  · by_cases hsp : c = ' '
    · subst hsp
      exact hout.quoted.space (hout.behind rfl)
    · exact .ink (writable_of_safe hsafe) (ink_of_safe hsafe hsp) hq (fun _ => hb) hout.quoted
  · simp [hbr]
  · intro _ hsp
    exact inkOrEnd_cons.mpr (ink_of_safe hsafe (by simpa using hsp))

/-- A line that is folded at a space. -/
theorem writesDouble_fold_space (hpos : 0 < indent) (hindent : indent < width)
    (hfold : foldsAt p before held ' ' rest = true)
    (h : ∀ p before held, WritesDouble indent p before held rest) :
    WritesDouble indent p before held (' ' :: rest) := by
  rw [WritesDouble, putDouble_fold (by decide) hfold]
  by_cases hmarked : isMarked before held rest = true
  · -- the space is escaped behind the fold
    obtain ⟨out, hwritten, hout⟩ :=
      h (((p.put held.reverse).fold indent true).put ['\\']) (some ' ') [' ']
    refine ⟨_, ?_, .of_backslash (hout.quoted.fold_space hpos)⟩
    simp [hmarked, hwritten]
  · -- the line break stands for the space
    simp only [isMarked, Bool.or_eq_true, decide_eq_true_eq, not_or] at hmarked
    have hwide : width < p.column + held.length := by
      simp only [foldsAt, Bool.and_eq_true, decide_eq_true_eq] at hfold
      exact hfold.2
    obtain ⟨out, hwritten, hout⟩ := h ((p.put held.reverse).fold indent false) (some ' ') []
    have hink : InkOrEnd out := hout.fits (by simp; omega) hmarked.2
    refine ⟨_, ?_, hout.quoted.break_space hpos hink, ?_, ?_⟩
    · simp [isMarked, hmarked, hwritten]
    · exact fun h => absurd h hmarked.1.2
    · exact fun h => absurd h (by omega)

/-- A line that is folded in front of another character: nothing is held, so the fold is marked. -/
theorem writesDouble_fold (hpos : 0 < indent) (hsafe : isSafe c = true) (hsp : c ≠ ' ')
    (hfold : foldsAt p before held c rest = true)
    (h : ∀ p before held, WritesDouble indent p before held rest) :
    WritesDouble indent p before held (c :: rest) := by
  obtain ⟨hq, hb, -, -⟩ := safe_spec hsafe
  have hink := ink_of_safe hsafe hsp
  have hheld : held = [] := by
    simp only [foldsAt, Bool.and_eq_true, Bool.or_eq_true, decide_eq_true_eq, hsp,
      false_or, List.isEmpty_iff] at hfold
    exact hfold.1.2
  subst hheld
  obtain ⟨out, hwritten, hout⟩ := h ((p.put []).fold indent true) (some c) [c]
  have hquoted := Quoted.fold rfl hpos (inkOrEnd_cons.mpr hink)
    (.ink (writable_of_safe hsafe) hink hq (fun _ => hb) hout.quoted)
  rw [WritesDouble, putDouble_fold hsafe hfold]
  refine ⟨_, ?_, .of_backslash hquoted⟩
  simp [isMarked, hsp, hwritten]

/-- What follows an escape, on its line or below. -/
theorem written_behind_escape (hpos : 0 < indent) (hindent : indent < width)
    (hsafe : isSafe c = false)
    (h : ∀ cs, cs.length ≤ rest.length → ∀ p before held, WritesDouble indent p before held cs) :
    ∃ out, (putDouble indent p before held false (c :: rest)).written =
        out.reverse ++ (Writer.escape c).reverse ++ (held ++ p.written) ∧ Quoted true out rest := by
  by_cases hfold : foldsBehind ((p.put held.reverse).put (Writer.escape c)) before rest = true
  · rw [putDouble_escape_fold hsafe hfold]
    generalize hq : (p.put held.reverse).put (Writer.escape c) = q
    by_cases hspace : Writer.spaceFolds c rest = true
    · -- the line break stands for the space behind the escape
      obtain ⟨d, rest, rfl, hd⟩ := spaceFolds_cases hspace
      obtain ⟨out, hwritten, hout⟩ := h (d :: rest) (by simp) (q.fold indent false) (some ' ') []
      have hink : InkOrEnd out := hout.fits (by simp; omega) (by simpa using hd)
      refine ⟨_, ?_, hout.quoted.break_space hpos hink⟩
      simp only [hspace, if_true, putDouble_folded, hwritten]
      simp [← hq]
    by_cases hhead : rest.head? = some ' '
    · -- a marked fold, and an escaped space behind it
      obtain ⟨rest, rfl⟩ := List.head?_eq_some_iff.mp hhead
      obtain ⟨out, hwritten, hout⟩ :=
        h rest (by simp) ((q.fold indent true).put ['\\']) (some ' ') [' ']
      refine ⟨_, ?_, hout.quoted.fold_space hpos⟩
      simp only [hspace, hhead, if_true]
      rw [if_neg (by simp), putDouble_space (by simp; omega), hwritten]
      simp [← hq]
    · obtain ⟨out, hwritten, hout⟩ := h rest le_rfl (q.fold indent true) (some c) []
      have hink : InkOrEnd out := hout.fits (by simp; omega) hhead
      refine ⟨'\\' :: '\n' :: (List.replicate indent ' ' ++ out), ?_, ?_⟩
      · rw [if_neg hspace]
        dsimp only
        rw [if_neg hhead, hwritten]
        simp [← hq]
      · exact .fold rfl hpos hink hout.quoted
  · rw [putDouble_escape hsafe (by simpa using hfold)]
    obtain ⟨out, hwritten, hout⟩ :=
      h rest le_rfl ((p.put held.reverse).put (Writer.escape c)) (some c) []
    exact ⟨out, by simp [hwritten], hout.quoted⟩

theorem writesDouble_escape (hpos : 0 < indent) (hindent : indent < width)
    (hsafe : isSafe c = false)
    (h : ∀ cs, cs.length ≤ rest.length → ∀ p before held, WritesDouble indent p before held cs) :
    WritesDouble indent p before held (c :: rest) := by
  obtain ⟨out, hwritten, hquoted⟩ :=
    @written_behind_escape indent p before held rest c hpos hindent hsafe h
  obtain ⟨e, he⟩ := escape_eq_cons c
  have hescaped : Quoted true (Writer.escape c ++ out) (c :: rest) := .escape rfl hquoted
  refine ⟨Writer.escape c ++ out, by simp [hwritten], ?_⟩
  rw [he] at hescaped ⊢
  exact .of_backslash hescaped

end Cases

/-- What is written between double quotes is read as the text. -/
theorem putDouble_quoted {indent : Nat} (hpos : 0 < indent) (hindent : indent < width)
    (cs : List Char) (p : Pen) (before : Option Char) (held : List Char) :
    WritesDouble indent p before held cs := by
  -- a space may be taken together with the escape in front of it
  induction hlen : cs.length using Nat.strong_induction_on generalizing cs p before held with
  | _ n ih =>
  have hshorter : ∀ cs, cs.length < n → ∀ p before held, WritesDouble indent p before held cs :=
    fun cs h p before held => ih cs.length h cs p before held rfl
  cases cs with
  | nil => exact ⟨[], by simp [putDouble], .nil, by simp, by simp⟩
  | cons c rest =>
    obtain rfl := hlen
    have hrest := hshorter rest (Nat.lt_succ_self _)
    cases hsafe : isSafe c with
    | false =>
      exact writesDouble_escape hpos hindent hsafe fun cs h => hshorter cs (Nat.lt_succ_of_le h)
    | true =>
      cases hfold : foldsAt p before held c rest with
      | false => exact writesDouble_hold hsafe hfold (hrest p (some c) (c :: held))
      | true =>
        by_cases hsp : c = ' '
        · subst hsp
          exact writesDouble_fold_space hpos hindent hfold hrest
        · exact writesDouble_fold hpos hsafe hsp hfold hrest

end RedisGateway.Yaml
