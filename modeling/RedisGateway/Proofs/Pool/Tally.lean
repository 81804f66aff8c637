import RedisGateway.Proofs.Pool.Entry

/-!
Tallies: a number for each phase, added up over the calls of a pool. A step changes a tally by what
the one call that takes it gains and loses, since waking and running out of time leave empty-handed
calls empty-handed.
-/

namespace RedisGateway.Pool

/-! ## Counts, with what is added or removed as a list of its own -/

theorem count_cons_add (c d : Conn) (l : List Conn) :
    (d :: l).count c = l.count c + [d].count c := by
  simp [List.count_cons]

theorem count_insert_le (c d : Conn) (l : List Conn) :
    (l.insert d).count c ≤ l.count c + [d].count c := by
  by_cases h : d ∈ l
  · rw [List.insert_of_mem h]
    omega
  · exact Nat.le_of_eq (by rw [List.insert_of_not_mem h, count_cons_add])

theorem count_insert_add {d : Conn} {l : List Conn} (h : d ∉ l) (c : Conn) :
    (l.insert d).count c = l.count c + [d].count c := by
  rw [List.insert_of_not_mem h, count_cons_add]

theorem count_erase_add {d : Conn} {l : List Conn} (h : d ∈ l) (c : Conn) :
    (l.erase d).count c + [d].count c = l.count c := by
  rw [← count_cons_add, (List.perm_cons_erase h).symm.count_eq]

/-- Among the accounts and in what a call has yet to enter there, no connection is there twice. -/
def Apart (core : Core) (phase : Phase) : Prop :=
  ∀ d, core.idle.count d + core.inUse.count d + phase.unregistered.count d ≤ 1

theorem Apart.front {core : Core} {phase : Phase} {d : Conn} {rest : List Conn}
    (h : Apart core phase) (hi : core.idle = d :: rest) : d ∉ core.inUse := by
  intro hu
  have h1 := h d
  have h2 := List.count_pos_iff.mpr hu
  rw [hi, List.count_cons_self] at h1
  omega

theorem Apart.unregistered {core : Core} {phase : Phase} {d : Conn} (h : Apart core phase)
    (hp : phase.unregistered = [d]) : d ∉ core.inUse := by
  intro hu
  have h1 := h d
  have h2 := List.count_pos_iff.mpr hu
  rw [hp, List.count_singleton_self] at h1
  omega

/-! ## Tallies -/

/-- What waiting, being woken and running out of time do not change. -/
def Steady {α : Type} (f : Phase → α) : Prop :=
  ∀ phase : Phase, f phase.roused = f phase ∧ f phase.expired = f phase

theorem steady_of {α : Type} {f : Phase → α}
    (h : ∀ late again, f (.seeking late again) = f .parked) : Steady f := by
  intro phase
  cases phase with
  | seeking late again => exact ⟨rfl, (h true again).trans (h late again).symm⟩
  | parked => exact ⟨h false true, h true true⟩
  | _ => exact ⟨rfl, rfl⟩

theorem steady_reserved : Steady Phase.reserved := steady_of fun _ _ => rfl

theorem steady_unregistered : Steady Phase.unregistered := steady_of fun _ _ => rfl

theorem steady_doomed : Steady Phase.doomed := steady_of fun _ _ => rfl

theorem steady_takenBack : Steady Phase.takenBack := steady_of fun _ _ => rfl

theorem steady_minded : Steady Phase.minded := steady_of fun _ _ => rfl

theorem steady_claimed : Steady Phase.claimed := steady_of fun _ _ => rfl

theorem Steady.count {hands : Phase → List Conn} (h : Steady hands) (c : Conn) :
    Steady fun phase => (hands phase).count c := fun phase =>
  ⟨congrArg (List.count c) (h phase).1, congrArg (List.count c) (h phase).2⟩

/-- A number for each phase, added up over threads. -/
def addUp (f : Phase → Nat) : List Thread → Nat
  | [] => 0
  | t :: threads => f t.phase + addUp f threads

theorem addUp_append (f : Phase → Nat) (as bs : List Thread) :
    addUp f (as ++ bs) = addUp f as + addUp f bs := by
  induction as with
  | nil => exact (Nat.zero_add _).symm
  | cons t as ih =>
    simp only [List.cons_append, addUp, ih]
    omega

theorem addUp_modify {f : Phase → Nat} {threads : List Thread} {i : Nat} {t : Thread}
    (h : threads[i]? = some t) (g : Thread → Thread) :
    addUp f (threads.modify i g) + f t.phase = addUp f threads + f (g t).phase := by
  induction threads generalizing i with
  | nil => cases h
  | cons u threads ih =>
    cases i with
    | zero =>
      cases h
      simp only [List.modify_zero_cons, addUp]
      omega
    | succ i =>
      have := ih h
      simp only [List.modify_succ_cons, addUp]
      omega

theorem addUp_modify_same {f : Phase → Nat} {g : Thread → Thread}
    (h : ∀ t, f (g t).phase = f t.phase) (threads : List Thread) (i : Nat) :
    addUp f (threads.modify i g) = addUp f threads := by
  induction threads generalizing i with
  | nil => rw [List.modify_nil]
  | cons u threads ih =>
    cases i with
    | zero => simp only [List.modify_zero_cons, addUp, h]
    | succ i => simp only [List.modify_succ_cons, addUp, ih]

theorem le_addUp {threads : List Thread} {t : Thread} (h : t ∈ threads) (f : Phase → Nat) :
    f t.phase ≤ addUp f threads := by
  induction threads with
  | nil => cases h
  | cons u threads ih =>
    simp only [addUp]
    rcases List.mem_cons.mp h with rfl | h
    · omega
    · exact Nat.le_trans (ih h) (Nat.le_add_left ..)

theorem addUp_eq_zero {f : Phase → Nat} {threads : List Thread}
    (h : ∀ t ∈ threads, f t.phase = 0) : addUp f threads = 0 := by
  induction threads with
  | nil => rfl
  | cons t threads ih =>
    simp only [List.forall_mem_cons] at h
    simp only [addUp, h.1, ih h.2]

theorem addUp_le_addUp {f g : Phase → Nat} (h : ∀ phase, f phase ≤ g phase)
    (threads : List Thread) : addUp f threads ≤ addUp g threads := by
  induction threads with
  | nil => exact Nat.le_refl _
  | cons t threads ih => exact Nat.add_le_add (h t.phase) ih

namespace System

/-- A number for each phase, added up over the calls. -/
def tally (s : System) (f : Phase → Nat) : Nat := addUp f s.threads

theorem tally_start (s : System) (p : Patience) (phase : Phase) (f : Phase → Nat) :
    (s.start p phase).tally f = s.tally f + f phase := by
  exact addUp_append f s.threads [⟨p, phase⟩]

theorem tally_start_same (s : System) (p : Patience) {phase : Phase} {f : Phase → Nat}
    (h : f phase = 0) : (s.start p phase).tally f = s.tally f := by
  rw [tally_start, h]
  rfl

theorem tally_setPhase {s : System} {i : Nat} {t : Thread} (h : s.threads[i]? = some t)
    (next : Phase) (f : Phase → Nat) :
    (s.setPhase i next).tally f + f t.phase = s.tally f + f next :=
  addUp_modify h fun t => { t with phase := next }

theorem tally_expire (s : System) (i : Nat) {f : Phase → Nat} (hf : Steady f) :
    (s.expire i).tally f = s.tally f :=
  addUp_modify_same (fun t => (hf t.phase).2) s.threads i

theorem tally_rouse (s : System) (i : Nat) {f : Phase → Nat} (hf : Steady f) :
    (s.rouse i).tally f = s.tally f :=
  addUp_modify_same (fun t => (hf t.phase).1) s.threads i

theorem tally_rouseAll (is : List Nat) (s : System) {f : Phase → Nat} (hf : Steady f) :
    (is.foldl rouse s).tally f = s.tally f := by
  induction is generalizing s with
  | nil => rfl
  | cons i is ih => rw [List.foldl_cons, ih, tally_rouse s i hf]

theorem tally_hold {s : System} {i : Nat} {t : Thread} (h : s.threads[i]? = some t)
    (turn : Core → Turn) {f : Phase → Nat} (hf : Steady f) :
    (s.hold i turn).1.tally f + f t.phase = s.tally f + f (turn s.core).next := by
  simp only [hold]
  rw [tally_rouseAll _ _ hf]
  exact tally_setPhase (s := { s with core := _, line := _ }) h _ f

theorem rouseAll_core (is : List Nat) (s : System) : (is.foldl rouse s).core = s.core := by
  induction is generalizing s with
  | nil => rfl
  | cons i is ih => rw [List.foldl_cons, ih]; rfl

@[simp] theorem hold_core (s : System) (i : Nat) (turn : Core → Turn) :
    (s.hold i turn).1.core = (turn s.core).core := by
  simp only [hold, rouseAll_core]
  rfl

theorem le_tally {s : System} {i : Nat} {t : Thread} (h : s.threads[i]? = some t)
    (f : Phase → Nat) : f t.phase ≤ s.tally f :=
  le_addUp (List.mem_of_getElem? h) f

end System

/-! ## What a step does to a tally -/

namespace TrackedSystem

/-- How often calls have a connection in hand, in one of the senses of having it in hand. -/
def held (s : TrackedSystem) (hands : Phase → List Conn) (c : Conn) : Nat :=
  s.system.tally fun phase => (hands phase).count c

variable {policy : Policy} {s : TrackedSystem} {i : Nat}

theorem thread_of_move {m : Move} (h : s.move? policy i = some m) :
    ∃ t, s.system.threads[i]? = some t ∧ t.phase.move policy t.patience = m := by
  simpa [move?] using h

theorem start_held (s : TrackedSystem) (p : Patience) (phase : Phase) (hands : Phase → List Conn)
    (c : Conn) : (s.start p phase).held hands c = s.held hands c + (hands phase).count c :=
  System.tally_start s.system p phase _

/-- A turn makes an entry, and what is in hand changes by what the call had and has. -/
theorem turn_held {turn : Core → Turn} (h : s.move? policy i = some (.hold turn)) :
    ∃ phase next wake, Entry policy phase s.core (s.hold i turn).core next wake ∧
      (turn s.core).next = next ∧
      (phase.reserved ≤ s.system.tally Phase.reserved ∧
        (s.hold i turn).system.tally Phase.reserved + phase.reserved =
          s.system.tally Phase.reserved + next.reserved) ∧
      ∀ hands, Steady hands → ∀ c, (hands phase).count c ≤ s.held hands c ∧
        (s.hold i turn).held hands c + (hands phase).count c =
          s.held hands c + (hands next).count c := by
  obtain ⟨t, ht, hm⟩ := thread_of_move h
  have e := entry_of_hold hm s.core
  rw [← System.hold_core s.system i turn] at e
  exact ⟨t.phase, _, _, e, rfl,
    ⟨System.le_tally ht _, System.tally_hold ht turn steady_reserved⟩,
    fun hands hf c => ⟨System.le_tally ht fun phase => (hands phase).count c,
      System.tally_hold ht turn (hf.count c)⟩⟩

/-- An answer leads a call on, and what is in hand changes by what the call had and has. -/
theorem answer_tally {r : Request} {resume : Except Failure r.Reply → Phase × List Notice}
    (h : s.move? policy i = some (.ask r resume)) (a : Except Failure r.Reply) :
    ∃ phase next, Sequel policy phase r a next ∧ (resume a).1 = next ∧
      ∀ f : Phase → Nat, (s.goOn i (resume a).1).system.tally f + f phase =
        s.system.tally f + f next := by
  obtain ⟨t, ht, hm⟩ := thread_of_move h
  exact ⟨t.phase, _, sequel_of_ask hm a, rfl, fun f => System.tally_setPhase ht _ f⟩

/-- A place stays reserved while the supplier answers. -/
theorem supplied_reserved {resume : Except Failure Conn → Phase × List Notice}
    (h : s.move? policy i = some (.ask .supply resume)) (a : Except Failure Conn) :
    (s.goOn i (resume a).1).system.tally Phase.reserved = s.system.tally Phase.reserved := by
  obtain ⟨phase, next, e, -, ht⟩ := answer_tally h a
  have hr := ht Phase.reserved
  cases e with
  | supplied => exact Nat.add_right_cancel hr
  | refused => exact Nat.add_right_cancel hr

theorem supplied_held {resume : Except Failure Conn → Phase × List Notice}
    (h : s.move? policy i = some (.ask .supply resume)) (d : Conn) (hands : Phase → List Conn)
    (c : Conn) : (s.goOn i (resume (.ok d)).1).held hands c + (hands .opening).count c =
      s.held hands c + (hands (.enrolling d)).count c := by
  obtain ⟨phase, next, e, -, ht⟩ := answer_tally h (.ok d)
  cases e with
  | supplied => exact ht fun phase => (hands phase).count c

theorem refused_held {resume : Except Failure Conn → Phase × List Notice}
    (h : s.move? policy i = some (.ask .supply resume)) (f : Failure) (hands : Phase → List Conn)
    (c : Conn) : (s.goOn i (resume (.error f)).1).held hands c + (hands .opening).count c =
      s.held hands c + (hands (.forgoing f)).count c := by
  obtain ⟨phase, next, e, -, ht⟩ := answer_tally h (.error f)
  cases e with
  | refused => exact ht fun phase => (hands phase).count c

/-- A ping is answered to a borrower that vets an idle connection or to a return that checks one. A
tally that does not tell the outcomes apart stays as it is. -/
theorem pinged_tally {d : Conn} {resume : Except Failure Value → Phase × List Notice}
    (h : s.move? policy i = some (.ask (.ping d) resume)) (a : Except Failure Value)
    {f : Phase → Nat} (hv : f (.delivering d false) = f (.vetting d))
    (hd : f (.dropping d) = f (.vetting d))
    (hs : ∀ keep, f (.settling d keep false) = f (.checking d)) :
    (s.goOn i (resume a).1).system.tally f = s.system.tally f := by
  obtain ⟨phase, next, e, -, ht⟩ := answer_tally h a
  have hf := ht f
  cases e with
  | healthy => omega
  | stale => omega
  | @checked _ _ keep =>
    have := hs keep
    omega

/-- A connection is closed by the call that has it in hand to that end; a tally of what such calls
have in hand gets smaller by the weight of that connection. -/
theorem closed_tally {d : Conn} {resume : Except Failure Unit → Phase × List Notice}
    (h : s.move? policy i = some (.ask (.close d) resume)) (a : Except Failure Unit)
    {f : Phase → Nat} {n : Nat} (hd : f (.seeking false false) + n = f (.discarding d))
    (hr : ∀ e, f (.finished (.error e)) + n = f (.refusing d))
    (ht : ∀ shut, f .counting + n = f (.retiring d shut))
    (hs : ∀ rest k, f (sweep policy k rest).1 + n = f (.sweeping d rest k)) :
    (s.goOn i (resume a).1).system.tally f + n = s.system.tally f := by
  obtain ⟨phase, next, e, -, hg⟩ := answer_tally h a
  have hf := hg f
  cases e with
  | discarded => omega
  | turnedAway =>
    have := hr (.poolClosed policy.name)
    omega
  | @retired _ shut =>
    have := ht shut
    omega
  | @swept _ rest k =>
    have := hs rest k
    omega

end TrackedSystem
end RedisGateway.Pool
