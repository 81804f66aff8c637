import Mathlib.Data.List.Nodup
import RedisGateway.Proofs.Pool.Capacity

/-!
No wake-up is lost. The free places of a pool, idle connections among them, are never more than the
waiters that are on their way back to look again, as long as anyone is in line; so whoever is parked
while a connection could be had waits only for the turn of another waiter.
-/

namespace RedisGateway.Pool

/-! ## Lines and phases -/

namespace System

variable {s : System} {i j : Nat} {turn : Core → Turn}

theorem woken_append_remaining (w : Wake) (line : List Nat) :
    woken w line ++ remaining w line = line := by
  cases w with
  | nobody => rfl
  | first => exact List.take_append_drop 1 line
  | everybody => exact List.append_nil line

theorem mem_of_mem_woken {w : Wake} {line : List Nat} (h : j ∈ woken w line) : j ∈ line := by
  rw [← woken_append_remaining w line]
  exact List.mem_append_left _ h

theorem mem_of_mem_remaining {w : Wake} {line : List Nat} (h : j ∈ remaining w line) :
    j ∈ line := by
  rw [← woken_append_remaining w line]
  exact List.mem_append_right _ h

theorem phase?_modify (g : Phase → Phase) (core : Core) (line : List Nat) (threads : List Thread)
    (i j : Nat) :
    phase? ⟨core, line, threads.modify i fun t => { t with phase := g t.phase }⟩ j =
      if i = j then (phase? ⟨core, line, threads⟩ j).map g else phase? ⟨core, line, threads⟩ j := by
  simp only [phase?, List.getElem?_modify]
  split <;> cases threads[j]? <;> rfl

theorem phase?_setPhase (s : System) (i : Nat) (next : Phase) (j : Nat) :
    (s.setPhase i next).phase? j =
      if i = j then (s.phase? j).map fun _ => next else s.phase? j :=
  phase?_modify (fun _ => next) s.core s.line s.threads i j

theorem phase?_expire (s : System) (i j : Nat) :
    (s.expire i).phase? j = if i = j then (s.phase? j).map Phase.expired else s.phase? j :=
  phase?_modify Phase.expired s.core s.line s.threads i j

theorem phase?_rouse (s : System) (i j : Nat) :
    (s.rouse i).phase? j = if i = j then (s.phase? j).map Phase.roused else s.phase? j :=
  phase?_modify Phase.roused s.core s.line s.threads i j

theorem threads_start (s : System) (p : Patience) (phase : Phase) (j : Nat) :
    (s.start p phase).threads[j]? =
      if j = s.threads.length then some ⟨p, phase⟩ else s.threads[j]? := by
  rw [start, List.getElem?_append]
  by_cases h : j < s.threads.length
  · rw [if_pos h, if_neg (Nat.ne_of_lt h)]
  · rw [if_neg h, List.getElem?_singleton, List.getElem?_eq_none (Nat.le_of_not_lt h)]
    by_cases hj : j = s.threads.length
    · rw [if_pos (by omega), if_pos hj]
    · rw [if_neg (by omega), if_neg hj]

theorem phase?_start (s : System) (p : Patience) (phase : Phase) (j : Nat) :
    (s.start p phase).phase? j =
      if j = s.threads.length then some phase else s.phase? j := by
  rw [phase?, threads_start]
  split <;> rfl

theorem phase?_rouseAll (is : List Nat) (s : System) (j : Nat) :
    (is.foldl rouse s).phase? j =
      if j ∈ is then (s.phase? j).map Phase.roused else s.phase? j := by
  induction is generalizing s with
  | nil => rfl
  | cons i is ih =>
    rw [List.foldl_cons, ih, phase?_rouse]
    by_cases hi : i = j
    · subst hi
      -- it does not matter how often a thread is woken
      have twice : ∀ o : Option Phase, (o.map Phase.roused).map Phase.roused =
          o.map Phase.roused := by
        intro o
        cases o with
        | none => rfl
        | some phase => cases phase <;> rfl
      rw [if_pos rfl, if_pos (List.mem_cons_self ..), twice, ite_self]
    · simp only [if_neg hi, List.mem_cons, Ne.symm (Ne.intro hi), false_or]

theorem rouseAll_line (is : List Nat) (s : System) : (is.foldl rouse s).line = s.line := by
  induction is generalizing s with
  | nil => rfl
  | cons i is ih => rw [List.foldl_cons, ih]; rfl

/-- A turn that parks its thread puts it at the end of the line. -/
theorem hold_line_of_parked (hn : (turn s.core).next = .parked) :
    (s.hold i turn).1.line = remaining (turn s.core).wake (s.line.erase i ++ [i]) := by
  simp only [hold, rouseAll_line, hn]
  rfl

theorem hold_line (hn : (turn s.core).next.isInLine = false) :
    (s.hold i turn).1.line = remaining (turn s.core).wake (s.line.erase i) := by
  simp only [hold, rouseAll_line, hn]
  rfl

/-- A turn that wakes nobody changes the phase of its own thread only. -/
theorem hold_phase?_of_nobody (h : (turn s.core).wake = .nobody) :
    (s.hold i turn).1.phase? j =
      if i = j then (s.phase? j).map fun _ => (turn s.core).next else s.phase? j := by
  simp only [hold, h]
  exact phase?_setPhase { s with core := _, line := _ } i _ j

theorem hold_phase? (hn : (turn s.core).next.isInLine = false) :
    (s.hold i turn).1.phase? j = if j ∈ woken (turn s.core).wake (s.line.erase i) then
      ((s.setPhase i (turn s.core).next).phase? j).map Phase.roused
    else (s.setPhase i (turn s.core).next).phase? j := by
  simp only [hold, hn, Bool.false_eq_true, if_false]
  rw [phase?_rouseAll]
  rfl

theorem hold_phase?_other (hn : (turn s.core).next.isInLine = false) (hi : i ≠ j) :
    (s.hold i turn).1.phase? j = if j ∈ woken (turn s.core).wake (s.line.erase i) then
      (s.phase? j).map Phase.roused else s.phase? j := by
  rw [hold_phase? hn, phase?_setPhase, if_neg hi]

/-- The thread that had a turn is not among those that it woke. -/
theorem hold_phase?_self (hn : (turn s.core).next.isInLine = false) (hl : s.line.Nodup) :
    (s.hold i turn).1.phase? i = (s.phase? i).map fun _ => (turn s.core).next := by
  have hw : i ∉ woken (turn s.core).wake (s.line.erase i) := fun hi =>
    hl.not_mem_erase (mem_of_mem_woken hi)
  rw [hold_phase? hn, if_neg hw, phase?_setPhase, if_pos rfl]

theorem mem_of_mem_hold_line (hn : (turn s.core).next.isInLine = false)
    (hj : j ∈ (s.hold i turn).1.line) : j ∈ s.line.erase i := by
  rw [hold_line hn] at hj
  exact mem_of_mem_remaining hj

/-- Who stays in line stays as it is. -/
theorem hold_phase?_of_mem_line (hn : (turn s.core).next.isInLine = false) (hl : s.line.Nodup)
    (hj : j ∈ (s.hold i turn).1.line) : (s.hold i turn).1.phase? j = s.phase? j := by
  have hij : i ≠ j := fun h => hl.not_mem_erase (h ▸ mem_of_mem_hold_line hn hj)
  have hw : j ∉ woken (turn s.core).wake (s.line.erase i) := by
    intro hw
    have hd := hl.erase i
    rw [← woken_append_remaining (turn s.core).wake (s.line.erase i), List.nodup_append] at hd
    rw [hold_line hn] at hj
    exact hd.2.2 j hw j hj rfl
  rw [hold_phase?_other hn hij, if_neg hw]

/-- Who had left the line before stays as it is. -/
theorem hold_phase?_of_not_mem_line (hn : (turn s.core).next.isInLine = false) (hi : i ≠ j)
    (hj : j ∉ s.line) : (s.hold i turn).1.phase? j = s.phase? j := by
  have hw : j ∉ woken (turn s.core).wake (s.line.erase i) := fun hw =>
    hj (List.mem_of_mem_erase (mem_of_mem_woken hw))
  rw [hold_phase?_other hn hi, if_neg hw]

end System

/-! ## The patience of threads -/

namespace System

/-- How long a thread is ready to wait. -/
def patience? (s : System) (i : Nat) : Option Patience := (s.threads[i]?).map (·.patience)

variable {s : System} {i j : Nat}

theorem patience?_modify (g : Phase → Phase) (core : Core) (line : List Nat)
    (threads : List Thread) (i j : Nat) :
    patience? ⟨core, line, threads.modify i fun t => { t with phase := g t.phase }⟩ j =
      patience? ⟨core, line, threads⟩ j := by
  simp only [patience?, List.getElem?_modify]
  split <;> cases threads[j]? <;> rfl

theorem patience?_rouseAll (is : List Nat) (s : System) (j : Nat) :
    (is.foldl rouse s).patience? j = s.patience? j := by
  induction is generalizing s with
  | nil => rfl
  | cons i is ih =>
    rw [List.foldl_cons, ih]
    exact patience?_modify Phase.roused s.core s.line s.threads i j

theorem patience?_hold (s : System) (i : Nat) (turn : Core → Turn) (j : Nat) :
    (s.hold i turn).1.patience? j = s.patience? j :=
  (patience?_rouseAll ..).trans (patience?_modify (fun _ => _) ..)

theorem patience?_setPhase (s : System) (i : Nat) (next : Phase) (j : Nat) :
    (s.setPhase i next).patience? j = s.patience? j :=
  patience?_modify (fun _ => _) ..

theorem patience?_expire (s : System) (i j : Nat) : (s.expire i).patience? j = s.patience? j :=
  patience?_modify Phase.expired ..

theorem patience?_start (s : System) (p : Patience) (phase : Phase) (j : Nat) :
    (s.start p phase).patience? j =
      if j = s.threads.length then some p else s.patience? j := by
  rw [patience?, threads_start]
  split <;> rfl

/-- No thread is to wait for longer than anyone can. -/
def Bearable (s : System) : Prop := ∀ i p, s.patience? i = some p → p.isTooLong = false

theorem Bearable.start {s : System} (hs : s.Bearable) {p : Patience} (hp : p.isTooLong = false)
    (phase : Phase) : (s.start p phase).Bearable := by
  intro j q hq
  rw [patience?_start] at hq
  split at hq
  · cases hq
    exact hp
  · exact hs j q hq

end System

/-- Whether a thread is parked. -/
def System.isParked (s : System) (j : Nat) : Bool :=
  match s.phase? j with
  | some .parked => true
  | _ => false

theorem System.isParked_iff {s : System} {j : Nat} :
    s.isParked j = true ↔ s.phase? j = some .parked := by
  unfold System.isParked
  split
  · exact ⟨fun _ => ‹_›, fun _ => rfl⟩
  · rename_i hn
    exact ⟨nofun, fun h => absurd h hn⟩

/-! ## What turns take and set free -/

/-- A pool without an idle connection and without room for a new one has no free place. -/
theorem none_left {limits : Limits} {core : Core} (hi : core.idle = [])
    (hr : core.hasRoom limits = false) :
    0 ≤ limits.maxTotal ∧ limits.maxTotal ≤ core.inUse.length + core.creating := by
  have h : ¬(limits.maxTotal < 0 ∨ (core.total : Int) < limits.maxTotal) := by
    intro h
    rw [hasRoom_iff.mpr h] at hr
    cases hr
  simp only [Core.total, hi, List.length_nil] at h
  omega

theorem whenFull_withdraws {policy : Policy} {p : Patience} {late : Bool}
    (h : p.whenFull policy late = .withdrawing) : p.isTooLong = true := by
  have e := whenFull_spec policy p late
  rw [h] at e
  cases e with
  | tooLong _ _ _ hl => exact hl

/-- Only a borrower that is to wait for too long stands in line without being parked. -/
theorem seek_withdraws {policy : Policy} {p : Patience} {late : Bool} {core : Core}
    (h : (seek policy p late core).next = .withdrawing) : p.isTooLong = true := by
  unfold seek at h
  split at h
  · cases h
  · split at h
    · split at h <;> cases h
    · split at h
      · cases h
      · exact whenFull_withdraws h

namespace Entry

variable {policy : Policy} {phase next : Phase} {core core' : Core} {wake : Wake}

theorem withdraws (e : Entry policy phase core core' next wake) (hn : next = .withdrawing) :
    ∃ late again, phase = .seeking late again := by
  cases e with
  | full => exact ⟨_, _, rfl⟩
  | reuse _ _ h => rcases h with rfl | rfl <;> cases hn
  | accept _ _ h => rcases h with rfl | ⟨_, _, rfl⟩ <;> cases hn
  | @shut core _ => cases h : core.idle.reverse <;> rw [h] at hn <;> cases hn
  | _ => cases hn

theorem closes (e : Entry policy phase core core' next wake) (hc : core'.closed = true) :
    core.closed = true ∨ wake = .everybody := by
  cases e with
  | shut => exact .inr rfl
  | _ => exact .inl hc

/-- What a turn takes from the places that are free or idle, the waiter takes that has it; what a
turn sets free it wakes another waiter for. Otherwise there is nothing to be had. -/
theorem taken (e : Entry policy phase core core' next wake) (ha : Apart core phase)
    (hr : phase.reserved ≤ core.creating) :
    wake = .everybody ∨
    (wake = .first ∧ phase.isAstir = false ∧
      core.inUse.length + core.creating ≤ core'.inUse.length + core'.creating + 1) ∨
    (wake = .nobody ∧ core.inUse.length + core.creating + (if phase.isAstir then 1 else 0) ≤
      core'.inUse.length + core'.creating) ∨
    (core' = core ∧ (core.closed = true ∨
      core.idle = [] ∧ core.hasRoom policy.limits = false)) := by
  have astir : ∀ phase : Phase, (if phase.isAstir = true then 1 else 0) ≤ 1 := by
    intro phase
    split <;> omega
  have erased : ∀ c, core.inUse.length ≤ (core.inUse.erase c).length + 1 := fun c =>
    Nat.le_add_of_sub_le List.le_length_erase
  cases e with
  | turnedAway hc => exact .inr (.inr (.inr ⟨rfl, .inl hc⟩))
  | @reuse late again _ c rest _ ho hi hn =>
    have h1 := astir (.seeking late again)
    have h2 := congrArg List.length (List.insert_of_not_mem (ha.front hi))
    rw [List.length_cons] at h2
    refine .inr (.inr (.inl ⟨rfl, ?_⟩))
    dsimp only
    omega
  | @reserve late again _ ho hi hr =>
    have h1 := astir (.seeking late again)
    refine .inr (.inr (.inl ⟨rfl, ?_⟩))
    dsimp only
    omega
  | full ho hi hr hn => exact .inr (.inr (.inr ⟨rfl, .inr ⟨hi, hr⟩⟩))
  | @drop c _ =>
    have h1 := erased c
    refine .inr (.inl ⟨rfl, rfl, ?_⟩)
    dsimp only
    omega
  | forgo =>
    refine .inr (.inl ⟨rfl, rfl, ?_⟩)
    dsimp only
    omega
  | refuse => exact .inl rfl
  | @enrol c _ ho =>
    have h1 := congrArg List.length (List.insert_of_not_mem (ha.unregistered rfl))
    rw [List.length_cons] at h1
    simp only [Phase.reserved] at hr
    refine .inr (.inr (.inl ⟨rfl, ?_⟩))
    simp only [Phase.isAstir, Bool.false_eq_true, if_false]
    omega
  | @keep c _ _ _ hu ho hk =>
    have h1 := erased c
    refine .inr (.inl ⟨rfl, rfl, ?_⟩)
    dsimp only
    omega
  | @retire c _ _ _ hu =>
    have h1 := erased c
    refine .inr (.inl ⟨rfl, rfl, ?_⟩)
    dsimp only
    omega
  | shut => exact .inl rfl
  | _ => exact .inr (.inr (.inl ⟨rfl, Nat.le_refl _⟩))

end Entry

/-! ## The watch over the line -/

/-- A thread that is on its way back to look again. -/
def System.Astir (s : System) (j : Nat) : Prop :=
  ∃ phase, s.phase? j = some phase ∧ phase.isAstir = true

theorem System.Astir.ne {s : System} {i j : Nat} {phase : Phase} (h : s.Astir j)
    (hi : s.phase? i = some phase) (hp : phase.isAstir = false) : i ≠ j := by
  obtain ⟨q, hq, hqa⟩ := h
  rintro rfl
  rw [Option.some.inj (hi.symm.trans hq), hqa] at hp
  cases hp

/-- Threads in line are parked or out of time, and every parked one is in line. While anyone is in
line, as many threads that have left it are on their way back as there are places that are free or
idle. -/
structure Watch (limits : Limits) (s : System) : Prop where
  once : s.line.Nodup
  waiting : ∀ j ∈ s.line, s.phase? j = some .parked ∨ s.phase? j = some (.seeking true true)
  listed : ∀ j, s.phase? j = some .parked → j ∈ s.line
  shut : s.core.closed = true → s.line = []
  bounded : s.line ≠ [] → 0 ≤ limits.maxTotal
  enough : s.line ≠ [] → ∃ awake : List Nat, awake.Nodup ∧
    (∀ j ∈ awake, j ∉ s.line ∧ s.Astir j) ∧
    limits.maxTotal ≤ s.core.inUse.length + s.core.creating + awake.length

namespace Watch

variable {policy : Policy} {limits : Limits} {s : System} {i : Nat}

/-- There are enough on their way back still, if all stay so that were. -/
theorem enough_of_astir (hw : Watch limits s) {s' : System} (h : ∀ j, s.Astir j → s'.Astir j)
    (hne : s.line ≠ []) : ∃ awake : List Nat, awake.Nodup ∧
      (∀ j ∈ awake, j ∉ s.line ∧ s'.Astir j) ∧
      limits.maxTotal ≤ s.core.inUse.length + s.core.creating + awake.length := by
  obtain ⟨awake, hnodup, hawake, hlen⟩ := hw.enough hne
  exact ⟨awake, hnodup, fun j hj => ⟨(hawake j hj).1, h j (hawake j hj).2⟩, hlen⟩

/-- The watch is kept when a thread goes on that neither waited nor was on its way back, and that
does not park. -/
theorem setPhase (hw : Watch limits s) {phase next : Phase} (hi : s.phase? i = some phase)
    (hp : phase ≠ .parked) (ha : phase.isAstir = false) (hn : next ≠ .parked) :
    Watch limits (s.setPhase i next) := by
  have hl : i ∉ s.line := by
    intro hm
    rcases hw.waiting i hm with h | h
    · exact hp (Option.some.inj (hi.symm.trans h))
    · rw [Option.some.inj (hi.symm.trans h)] at ha
      cases ha
  have other : ∀ j, i ≠ j → (s.setPhase i next).phase? j = s.phase? j := by
    intro j hj
    rw [System.phase?_setPhase, if_neg hj]
  have stays : ∀ j, s.Astir j → (s.setPhase i next).Astir j := by
    intro j hj
    obtain ⟨q, hq, hqa⟩ := hj
    exact ⟨q, (other j (System.Astir.ne ⟨q, hq, hqa⟩ hi ha)).trans hq, hqa⟩
  refine ⟨hw.once, ?_, ?_, hw.shut, hw.bounded, hw.enough_of_astir stays⟩
  · intro j hj
    rw [other j (fun h => hl (h ▸ hj))]
    exact hw.waiting j hj
  · intro j hj
    by_cases hij : i = j
    · subst hij
      rw [System.phase?_setPhase, if_pos rfl, hi] at hj
      exact absurd (Option.some.inj hj) hn
    · rw [other j hij] at hj
      exact hw.listed j hj

theorem start (hw : Watch limits s) (p : Patience) {phase : Phase} (hp : phase ≠ .parked) :
    Watch limits (s.start p phase) := by
  have known : ∀ {j q}, s.phase? j = some q → (s.start p phase).phase? j = some q := by
    intro j q hq
    have hj : j < s.threads.length := by
      by_contra h
      simp [System.phase?, List.getElem?_eq_none (Nat.le_of_not_lt h)] at hq
    rw [System.phase?_start, if_neg (Nat.ne_of_lt hj)]
    exact hq
  have stays : ∀ j, s.Astir j → (s.start p phase).Astir j := by
    intro j hj
    obtain ⟨q, hq, hqa⟩ := hj
    exact ⟨q, known hq, hqa⟩
  refine ⟨hw.once, ?_, ?_, hw.shut, hw.bounded, hw.enough_of_astir stays⟩
  · intro j hj
    exact (hw.waiting j hj).imp known known
  · intro j hj
    rw [System.phase?_start] at hj
    split at hj
    · exact absurd (Option.some.inj hj) hp
    · exact hw.listed j hj

theorem expire (hw : Watch limits s) (i : Nat) : Watch limits (s.expire i) := by
  have stays : ∀ j, s.Astir j → (s.expire i).Astir j := by
    intro j hj
    obtain ⟨q, hq, hqa⟩ := hj
    rw [System.Astir, System.phase?_expire, hq]
    split
    · refine ⟨q.expired, rfl, ?_⟩
      cases q with
      | seeking late again => exact hqa
      | _ => cases hqa
    · exact ⟨q, rfl, hqa⟩
  refine ⟨hw.once, ?_, ?_, hw.shut, hw.bounded, hw.enough_of_astir stays⟩
  · intro j hj
    rw [System.phase?_expire]
    rcases hw.waiting j hj with h | h <;> rw [h] <;> split
    · exact .inr rfl
    · exact .inl rfl
    · exact .inr rfl
    · exact .inr rfl
  · intro j hj
    rw [System.phase?_expire] at hj
    split at hj
    · obtain ⟨q, hq, he⟩ := Option.map_eq_some_iff.mp hj
      cases q <;> cases he
    · exact hw.listed j hj

/-- The watch is kept when a borrower parks: it does so when there is nothing to be had. -/
theorem hold_of_parked (hw : Watch policy.limits s) {phase : Phase} {turn : Core → Turn}
    (hi : s.phase? i = some phase)
    (e : Entry policy phase s.core (turn s.core).core (turn s.core).next (turn s.core).wake)
    (hn : (turn s.core).next = .parked) : Watch policy.limits (s.hold i turn).1 := by
  obtain ⟨-, hwake, hcore, ho, hidle, hroom⟩ := e.parks hn
  obtain ⟨hb, hf⟩ := none_left hidle hroom
  have hline : (s.hold i turn).1.line = s.line.erase i ++ [i] := by
    rw [System.hold_line_of_parked hn, hwake]
    rfl
  have hself : (s.hold i turn).1.phase? i = some .parked := by
    rw [System.hold_phase?_of_nobody hwake, if_pos rfl, hi, hn]
    rfl
  have hother : ∀ j, i ≠ j → (s.hold i turn).1.phase? j = s.phase? j := by
    intro j hj
    rw [System.hold_phase?_of_nobody hwake, if_neg hj]
  refine ⟨?_, ?_, ?_, ?_, fun _ => hb, fun _ => ⟨[], List.nodup_nil, nofun, ?_⟩⟩
  · rw [hline, List.nodup_append]
    refine ⟨hw.once.erase i, List.nodup_singleton i, ?_⟩
    rintro j hj k hk rfl
    rw [List.mem_singleton.mp hk] at hj
    exact hw.once.not_mem_erase hj
  · intro j hj
    rw [hline, List.mem_append, List.mem_singleton] at hj
    rcases hj with hj | rfl
    · have hij : i ≠ j := fun h => hw.once.not_mem_erase (h ▸ hj)
      rw [hother j hij]
      exact hw.waiting j (List.mem_of_mem_erase hj)
    · exact .inl hself
  · intro j hj
    rw [hline, List.mem_append, List.mem_singleton]
    by_cases hij : i = j
    · exact .inr hij.symm
    · rw [hother j hij] at hj
      exact .inl ((List.mem_erase_of_ne (Ne.symm hij)).mpr (hw.listed j hj))
  · intro hc
    rw [System.hold_core, hcore, ho] at hc
    cases hc
  · rw [System.hold_core, hcore]
    simpa using hf

variable {phase : Phase} {turn : Core → Turn}

/-- Who is on its way back stays so until its own turn. -/
theorem stays_astir (hn : (turn s.core).next.isInLine = false) {j : Nat} (hi : i ≠ j)
    (hj : j ∉ s.line ∧ s.Astir j) : j ∉ (s.hold i turn).1.line ∧ (s.hold i turn).1.Astir j := by
  obtain ⟨hl, q, hq, hqa⟩ := hj
  refine ⟨fun h => hl (List.mem_of_mem_erase (System.mem_of_mem_hold_line hn h)), q, ?_, hqa⟩
  rw [System.hold_phase?_of_not_mem_line hn hi hl, hq]

/-- The head of the line, once it is woken, is on its way back. -/
theorem head_astir (hw : Watch limits s) (hn : (turn s.core).next.isInLine = false)
    (hwake : (turn s.core).wake = .first) {k : Nat} {rest : List Nat}
    (hq : s.line.erase i = k :: rest) :
    k ∈ s.line ∧ k ∉ (s.hold i turn).1.line ∧ (s.hold i turn).1.Astir k := by
  have hk : k ∈ s.line.erase i := hq ▸ List.mem_cons_self ..
  have hi : i ≠ k := fun h => hw.once.not_mem_erase (h ▸ hk)
  have hl := List.mem_of_mem_erase hk
  have hwoken : k ∈ System.woken (turn s.core).wake (s.line.erase i) := by
    rw [hwake, hq]
    exact List.mem_singleton_self k
  refine ⟨hl, ?_, ?_⟩
  · rw [System.hold_line hn, hwake, hq]
    exact (List.nodup_cons.mp (hq ▸ hw.once.erase i)).1
  · rw [System.Astir, System.hold_phase?_other hn hi, if_pos hwoken]
    rcases hw.waiting k hl with h | h <;> rw [h] <;> exact ⟨_, rfl, rfl⟩

/-- What a turn takes was counted on the thread that has it, and what it sets free is counted on the
thread that it wakes. -/
theorem enough_of_hold (hw : Watch policy.limits s) (hi : s.phase? i = some phase)
    (e : Entry policy phase s.core (turn s.core).core (turn s.core).next (turn s.core).wake)
    (ha : Apart s.core phase) (hr : phase.reserved ≤ s.core.creating)
    (hn : (turn s.core).next.isInLine = false) (hl : (s.hold i turn).1.line ≠ [])
    (hs : s.line ≠ []) :
    ∃ awake : List Nat, awake.Nodup ∧
      (∀ j ∈ awake, j ∉ (s.hold i turn).1.line ∧ (s.hold i turn).1.Astir j) ∧
      policy.limits.maxTotal ≤ (turn s.core).core.inUse.length + (turn s.core).core.creating +
        awake.length := by
  obtain ⟨awake, hon, hawake, hlen⟩ := hw.enough hs
  rcases e.taken ha hr with h | ⟨hwake, hp, ht⟩ | ⟨-, ht⟩ | ⟨hcore, h | ⟨hidle, hroom⟩⟩
  · -- everybody was woken, so that no one is in line
    rw [System.hold_line hn, h] at hl
    exact absurd rfl hl
  · -- one place was set free, and the head of the line is awake for it
    cases hq : s.line.erase i with
    | nil =>
      rw [System.hold_line hn, hwake, hq] at hl
      exact absurd rfl hl
    | cons k rest =>
      obtain ⟨hk, hka⟩ := hw.head_astir hn hwake hq
      refine ⟨k :: awake, List.nodup_cons.mpr ⟨fun h => (hawake k h).1 hk, hon⟩, ?_, ?_⟩
      · intro j hj
        rcases List.mem_cons.mp hj with rfl | hj
        · exact hka
        · exact stays_astir hn ((hawake j hj).2.ne hi hp) (hawake j hj)
      · rw [List.length_cons]
        omega
  · -- the thread is not on its way back any more, and has taken a place if it was
    refine ⟨awake.erase i, hon.erase i, fun j hj =>
      stays_astir hn (fun h => hon.not_mem_erase (h ▸ hj))
        (hawake j (List.mem_of_mem_erase hj)), ?_⟩
    by_cases hp : phase.isAstir = true
    · have h1 : awake.length - 1 ≤ (awake.erase i).length := List.le_length_erase
      rw [if_pos hp] at ht
      omega
    · have hnot : i ∉ awake := fun h => (hawake i h).2.ne hi (by simpa using hp) rfl
      rw [List.erase_of_not_mem hnot]
      omega
  · exact absurd (hw.shut h) hs
  · have h1 := (none_left hidle hroom).2
    refine ⟨[], List.nodup_nil, nofun, ?_⟩
    rw [hcore]
    simpa using h1

/-- The watch is kept when a thread has its turn and goes on. -/
theorem hold_of_going (hw : Watch policy.limits s) (hi : s.phase? i = some phase)
    (e : Entry policy phase s.core (turn s.core).core (turn s.core).next (turn s.core).wake)
    (ha : Apart s.core phase) (hr : phase.reserved ≤ s.core.creating)
    (hn : (turn s.core).next.isInLine = false) : Watch policy.limits (s.hold i turn).1 := by
  have hline := System.hold_line (i := i) hn
  have hne : (s.hold i turn).1.line ≠ [] → s.line ≠ [] := by
    rintro h hs
    rw [hline, hs] at h
    exact h (by cases (turn s.core).wake <;> rfl)
  refine ⟨?_, ?_, ?_, ?_, fun h => hw.bounded (hne h), ?_⟩
  · have hnodup := hw.once.erase i
    rw [← System.woken_append_remaining (turn s.core).wake (s.line.erase i),
      List.nodup_append] at hnodup
    rw [hline]
    exact hnodup.2.1
  · intro j hj
    rw [System.hold_phase?_of_mem_line hn hw.once hj]
    exact hw.waiting j (List.mem_of_mem_erase (System.mem_of_mem_hold_line hn hj))
  · intro j hj
    by_cases hij : i = j
    · subst hij
      rw [System.hold_phase?_self hn hw.once, hi] at hj
      have hp : (turn s.core).next = .parked := Option.some.inj hj
      rw [hp] at hn
      cases hn
    · rw [System.hold_phase?_other hn hij] at hj
      split at hj
      · obtain ⟨q, -, hq⟩ := Option.map_eq_some_iff.mp hj
        cases q <;> cases hq
      · rename_i hnot
        have hm := (List.mem_erase_of_ne (Ne.symm hij)).mpr (hw.listed j hj)
        rw [← System.woken_append_remaining (turn s.core).wake (s.line.erase i)] at hm
        rw [hline]
        exact (List.mem_append.mp hm).resolve_left hnot
  · intro hc
    rw [System.hold_core] at hc
    rcases e.closes hc with h | h
    · by_contra hl
      exact hne hl (hw.shut h)
    · rw [hline, h]
      rfl
  · intro hl
    rw [System.hold_core]
    exact hw.enough_of_hold hi e ha hr hn hl (hne hl)

end Watch

/-- Whether a borrower can wait for as long as it is to. -/
def Limits.bears (l : Limits) (timeout : Option Timeout) : Bool :=
  match l.patience timeout with
  | .ok p => !p.isTooLong
  | .error _ => true

theorem bears_patience {l : Limits} {timeout : Option Timeout} {p : Patience}
    (h : l.bears timeout = true) (hp : l.patience timeout = .ok p) : p.isTooLong = false := by
  simpa [Limits.bears, hp] using h

namespace TrackedSystem

variable {policy : Policy} {s t : TrackedSystem} {h : Happening}

theorem phase?_of_thread {i : Nat} {thread : Thread} (ht : s.system.threads[i]? = some thread) :
    s.system.phase? i = some thread.phase := by
  rw [System.phase?, ht]
  rfl

/-- The watch is kept when a call goes on after an answer. -/
theorem watch_goOn (hw : Watch policy.limits s.system) {i : Nat} {r : Request}
    {resume : Except Failure r.Reply → Phase × List Notice}
    (hm : s.move? policy i = some (.ask r resume)) (a : Except Failure r.Reply) :
    Watch policy.limits (s.goOn i (resume a).1).system := by
  obtain ⟨thread, ht, hm⟩ := thread_of_move hm
  obtain ⟨hp, ha, hn⟩ := (sequel_of_ask hm a).goes_on
  exact hw.setPhase (phase?_of_thread ht) hp ha hn

theorem isInLine_cases {phase : Phase} (h : phase.isInLine = true) :
    phase = .parked ∨ phase = .withdrawing := by
  cases phase with
  | parked => exact .inl rfl
  | withdrawing => exact .inr rfl
  | _ => cases h

theorem watch_step (hs : Sound policy.limits s) (hb : s.system.Bearable)
    (hw : Watch policy.limits s.system) (st : Step policy s h t) :
    Watch policy.limits t.system := by
  cases st with
  | borrow | giveBack | offer | close => exact hw.start _ nofun
  | @turn i turn hm =>
    obtain ⟨thread, ht, hm⟩ := thread_of_move hm
    have hi := phase?_of_thread ht
    have e := entry_of_hold hm s.core
    cases hn : (turn s.core).next.isInLine with
    | true =>
      rcases isInLine_cases hn with hn | hn
      · exact hw.hold_of_parked hi e hn
      · -- a thread that withdraws is to wait for too long
        obtain ⟨late, again, hp⟩ := e.withdraws hn
        rw [hp] at hm
        cases hm
        have long := hb i thread.patience (congrArg (Option.map _) ht)
        rw [seek_withdraws hn] at long
        cases long
    | false =>
      have ha : Apart s.core thread.phase := by
        intro d
        have h1 := hs.once d
        have h2 : thread.phase.unregistered.count d ≤ s.held Phase.unregistered d :=
          System.le_tally ht fun phase => phase.unregistered.count d
        have h3 := List.nodup_iff_count.mp hs.novel d
        omega
      exact hw.hold_of_going hi e ha (hs.places ▸ System.le_tally ht _) hn
  | supplied hm => exact watch_goOn hw hm _
  | refused hm => exact watch_goOn hw hm _
  | pinged hm => exact watch_goOn hw hm _
  | closed hm => exact watch_goOn hw hm _
  | lapse => exact hw.expire _

/-- The supplier opens a new connection each time, and no borrower is to wait for longer than anyone
can. -/
def Timely (policy : Policy) : Rule
  | _, .borrow timeout => policy.limits.bears timeout = true
  | s, h => Novel s h

instance (s : TrackedSystem) : ∀ h, Decidable (Timely policy s h)
  | .borrow timeout => inferInstanceAs (Decidable (policy.limits.bears timeout = true))
  | .supplied i c => inferInstanceAs (Decidable (Novel s (.supplied i c)))
  | .giveBack _ | .offer _ | .close | .turn _ | .refused .. | .pinged .. | .closed .. | .lapse _ =>
    inferInstanceAs (Decidable True)

theorem Timely.novel (hr : Timely policy s h) : Novel s h := by
  cases h with
  | borrow => trivial
  | _ => exact hr

theorem bearable_step (hb : s.system.Bearable) (hr : Timely policy s h) (st : Step policy s h t) :
    t.system.Bearable := by
  cases st with
  | borrow hp => exact hb.start (bears_patience hr hp) _
  | giveBack | offer | close => exact hb.start rfl _
  | turn =>
    intro j p hp
    exact hb j p ((System.patience?_hold ..).symm.trans hp)
  | supplied | refused | pinged | closed =>
    intro j p hp
    exact hb j p ((System.patience?_setPhase ..).symm.trans hp)
  | lapse =>
    intro j p hp
    exact hb j p ((System.patience?_expire ..).symm.trans hp)

theorem Reachable.watch (hv : policy.limits.Valid) (hs : Reachable policy (Timely policy) s) :
    Watch policy.limits s.system := by
  obtain ⟨s₀, h₀, hl⟩ := hs
  have hsound := Sound.opening hv h₀
  obtain ⟨idle, -, -, rfl⟩ := h₀.shape
  have hopen : System.Bearable { core := { idle } } ∧ Watch policy.limits { core := { idle } } :=
    ⟨nofun, List.nodup_nil, nofun, nofun, nofun, absurd rfl, absurd rfl⟩
  suffices s.system.Bearable ∧ Watch policy.limits s.system from this.2
  induction hl with
  | refl => exact hopen
  | step hl hr st ih =>
    have hs := hsound.leads (fun _ _ hn => Timely.novel hn) hl
    exact ⟨bearable_step ih.1 hr st, watch_step hs ih.1 ih.2 st⟩

/-- No wake-up is lost, whoever calls and in whatever order threads go on, as long as the supplier
opens a new connection each time and no borrower is to wait for longer than anyone can: while a
borrower is parked in a pool that is closed, has an idle connection or has room for another one, a
waiter that was woken or is out of time is on its way to look again. -/
theorem no_wakeup_lost (hv : policy.limits.Valid) (hs : Reachable policy (Timely policy) s)
    {j : Nat} (hp : s.system.phase? j = some .parked)
    (hc : s.core.closed = true ∨ s.core.idle ≠ [] ∨ s.core.hasRoom policy.limits = true) :
    ∃ k late, s.system.phase? k = some (.seeking late true) := by
  have hw := hs.watch hv
  have hne := List.ne_nil_of_mem (hw.listed j hp)
  have hb := hw.bounded hne
  obtain ⟨awake, -, hawake, hlen⟩ := hw.enough hne
  have hfree : ((s.core.inUse.length + s.core.creating : Nat) : Int) < policy.limits.maxTotal := by
    -- an idle connection is a place that is neither in use nor reserved
    have htotal := (hs.sound hv fun _ _ hn => Timely.novel hn).total hb
    rw [Core.total] at htotal
    rcases hc with hc | hc | hc
    · exact absurd (hw.shut hc) hne
    · have := List.length_pos_iff.mpr hc
      omega
    · have := hasRoom_iff.mp hc
      rw [Core.total] at this
      omega
  cases awake with
  | nil =>
    exact absurd hlen (by simpa using hfree)
  | cons k rest =>
    obtain ⟨-, phase, hk, hka⟩ := hawake k (List.mem_cons_self ..)
    cases phase with
    | seeking late again =>
      cases hka
      exact ⟨k, late, hk⟩
    | _ => cases hka

/-- Two borrowers wait for the only connection. It is given back: one of them was woken, the other
one is parked beside an idle connection. -/
theorem no_wakeup_lost_of_single : Policy.single.limits.Valid ∧ ∃ s,
    Reachable .single (Timely .single) s ∧ s.system.phase? 2 = some .parked ∧
    (s.core.closed = true ∨ s.core.idle ≠ [] ∨ s.core.hasRoom Policy.single.limits = true) ∧
    ∃ k late, s.system.phase? k = some (.seeking late true) := by
  have hv : Policy.single.limits.Valid := by decide
  obtain ⟨s, hs, h⟩ := reachable_of_play (Timely .single) single_justOpened
    [.borrow none, .turn 0, .turn 0, .turn 0, .borrow none, .turn 1, .borrow none, .turn 2,
      .giveBack (0, 0), .turn 3, .pinged 3 (.ok (.flag true)), .turn 3]
    (fun s => s.system.isParked 2 && !s.core.idle.isEmpty) (by decide)
  simp only [Bool.and_eq_true, System.isParked_iff, Bool.not_eq_true', List.isEmpty_eq_false_iff]
    at h
  have hc : s.core.closed = true ∨ s.core.idle ≠ [] ∨
      s.core.hasRoom Policy.single.limits = true := .inr (.inl h.2)
  exact ⟨hv, s, hs, h.1, hc, no_wakeup_lost hv hs h.1 hc⟩

/-- Anything goes: the supplier may hand out a connection that it handed out before. -/
def Unruled : Rule
  | _, _ => True

instance (s : TrackedSystem) (h : Happening) : Decidable (Unruled s h) :=
  inferInstanceAs (Decidable True)

/-- A thread is parked in a pool that is closed or could serve it, and no one is on its way to look
again. -/
def Forgets (policy : Policy) (s : TrackedSystem) (j : Nat) : Prop :=
  s.system.phase? j = some .parked ∧
    (s.core.closed = true ∨ s.core.idle ≠ [] ∨ s.core.hasRoom policy.limits = true) ∧
    ∀ k late, s.system.phase? k ≠ some (.seeking late true)

/-- The same of an open pool, as it is computed. -/
def forgets (policy : Policy) (s : TrackedSystem) (j : Nat) : Bool :=
  s.system.isParked j && (!s.core.idle.isEmpty || s.core.hasRoom policy.limits) &&
    s.system.threads.all fun t => !t.phase.isAstir

theorem forgets_of_eq_true {j : Nat} (h : forgets policy s j = true) : Forgets policy s j := by
  simp only [forgets, Bool.and_eq_true, System.isParked_iff, Bool.or_eq_true, Bool.not_eq_true',
    List.isEmpty_eq_false_iff, List.all_eq_true] at h
  obtain ⟨⟨hp, hc⟩, hall⟩ := h
  refine ⟨hp, .inr hc, fun k late hk => ?_⟩
  obtain ⟨t, ht, hk⟩ := Option.map_eq_some_iff.mp hk
  have ha := hall t (List.mem_of_getElem? ht)
  rw [hk] at ha
  cases ha

/-- A pool that may have two connections. -/
def double : Policy where
  name := "double"
  limits := { maxTotal := 2 }

/-- A pool that was opened without any connection. -/
def vacant : TrackedSystem where
  system := {}
  opened := []

/-- Neither rule can be done without. If the supplier hands out one connection twice, the second
borrower takes no place of its own, so that there is room for the third one, which no one wakes. If
a borrower is to wait for too long, it can be woken in another one's stead before it leaves the
line. -/
theorem wakeup_lost_if_supplied_twice_or_too_long :
    (∃ s j, double.limits.Valid ∧ Reachable double Unruled s ∧ Forgets double s j) ∧
    ∃ s j, Policy.single.limits.Valid ∧ Reachable .single Novel s ∧ Forgets .single s j := by
  constructor
  · have hopen : JustOpened double vacant :=
      ⟨Nat, .counting, 0, 0, {}, openPool_of_isShowable (Limits.isShowable_of_lt (by decide)) rfl,
        List.nodup_nil, rfl⟩
    obtain ⟨s, hs, h⟩ := reachable_of_play Unruled hopen
      [.borrow none, .turn 0, .supplied 0 0, .turn 0, .turn 0, .turn 0, .borrow none, .turn 1,
        .borrow none, .turn 2, .supplied 1 0, .turn 1, .turn 1, .turn 1]
      (fun s => forgets double s 2) (by decide)
    exact ⟨s, 2, by decide, hs, forgets_of_eq_true h⟩
  · obtain ⟨s, hs, h⟩ := reachable_of_play Novel single_justOpened
      [.borrow none, .turn 0, .turn 0, .turn 0, .borrow (some (.whole 10000000000)), .turn 1,
        .borrow none, .turn 2, .giveBack (0, 0), .turn 3, .pinged 3 (.ok (.flag true)), .turn 3,
        .turn 1]
      (fun s => forgets .single s 2) (by decide +kernel)
    exact ⟨s, 2, by decide, hs, forgets_of_eq_true h⟩

end TrackedSystem
end RedisGateway.Pool
