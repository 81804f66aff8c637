import RedisGateway.Proofs.Pool.TrackedSystem

/-!
What one step does. `Entry` lists what a call can do to the accounts during a turn, with the phase
before and after it, and `Sequel` lists where the answer to a request can lead a call. Every
invariant of a pool is checked against these two lists.
-/

namespace RedisGateway.Pool

/-! ## Turns under the lock -/

/-- What a call can do to the accounts in one turn: the phase and the accounts before it, the
accounts and the phase after it, and whom it wakes. -/
inductive Entry (policy : Policy) : Phase → Core → Core → Phase → Wake → Prop where
  /-- A borrower is turned away by a closed pool. -/
  | turnedAway {late again core} (h : core.closed = true) :
      Entry policy (.seeking late again) core core
        (.finished (.error (.poolClosed policy.name))) .nobody
  /-- A borrower takes the idle connection in front. -/
  | reuse {late again core c rest next} (ho : core.closed = false) (hi : core.idle = c :: rest)
      (hn : next = .vetting c ∨ next = .delivering c false) :
      Entry policy (.seeking late again) core
        { core with idle := rest, inUse := core.inUse.insert c } next .nobody
  /-- A borrower reserves a place for a new connection. -/
  | reserve {late again core} (ho : core.closed = false) (hi : core.idle = [])
      (hr : core.hasRoom policy.limits = true) :
      Entry policy (.seeking late again) core { core with creating := core.creating + 1 }
        .opening .nobody
  /-- A borrower finds nothing and waits or gives up. -/
  | full {late again core next} (ho : core.closed = false) (hi : core.idle = [])
      (hr : core.hasRoom policy.limits = false)
      (hn : next = .parked ∨ next = .withdrawing ∨ ∃ f, next = .finished (.error f)) :
      Entry policy (.seeking late again) core core next .nobody
  /-- A borrower gives up a wait that is too long. -/
  | withdraw {core} :
      Entry policy .withdrawing core core (.finished (.error .waitOutOfRange)) .nobody
  | drop {c core} :
      Entry policy (.dropping c) core { core with inUse := core.inUse.erase c }
        (.discarding c) .first
  | forgo {f core} :
      Entry policy (.forgoing f) core { core with creating := core.creating - 1 }
        (.finished (.error (.notOpened f))) .first
  /-- A new connection comes too late. -/
  | refuse {c core} (h : core.closed = true) :
      Entry policy (.enrolling c) core { core with creating := core.creating - 1 }
        (.refusing c) .everybody
  | enrol {c core} (h : core.closed = false) :
      Entry policy (.enrolling c) core
        { core with creating := core.creating - 1, inUse := core.inUse.insert c }
        (.delivering c true) .nobody
  | deliver {c fresh core} :
      Entry policy (.delivering c fresh) core core
        (.announcing c fresh core.inUse.length) .nobody
  | announce {c fresh active core} :
      Entry policy (.announcing c fresh active) core core (.finished (.ok (some c))) .nobody
  /-- A return is ignored. -/
  | ignore {c core} (h : c ∉ core.inUse ∨ c ∈ core.returning) :
      Entry policy (.accepting c) core core (.finished (.ok none)) .nobody
  | accept {c core next} (hu : c ∈ core.inUse) (hr : c ∉ core.returning)
      (hn : next = .checking c ∨ ∃ keep shut, next = .settling c keep shut) :
      Entry policy (.accepting c) core { core with returning := c :: core.returning } next .nobody
  /-- A connection that is taken back is no longer in use. -/
  | forget {c keep shut core} (h : c ∉ core.inUse) :
      Entry policy (.settling c keep shut) core
        { core with returning := core.returning.erase c }
        (.finished (.error (.forgottenConnection c))) .nobody
  /-- A connection becomes idle. -/
  | keep {c keep shut core} (hu : c ∈ core.inUse) (ho : core.closed = false)
      (hk : policy.limits.keepsMore core.idle.length = true) :
      Entry policy (.settling c keep shut) core
        { core with
          returning := core.returning.erase c, inUse := core.inUse.erase c
          idle := c :: core.idle }
        .counting .first
  /-- A connection is not kept. -/
  | retire {c keep shut core} (hu : c ∈ core.inUse) :
      Entry policy (.settling c keep shut) core
        { core with returning := core.returning.erase c, inUse := core.inUse.erase c }
        (.retiring c shut) .first
  | count {core} : Entry policy .counting core core (.tallying core.inUse.length) .nobody
  | tally {active core} :
      Entry policy (.tallying active) core core (.finished (.ok none)) .nobody
  /-- The pool was closed before. -/
  | shutAgain {core} (h : core.closed = true) :
      Entry policy .shutting core core (.finished (.ok none)) .nobody
  | shut {core} (h : core.closed = false) :
      Entry policy .shutting core { core with idle := [], closed := true }
        (sweep policy core.inUse.length core.idle.reverse).1 .everybody

section
variable (policy : Policy) (inUse : Nat) (cs : List Conn)

@[simp] theorem sweep_reserved : (sweep policy inUse cs).1.reserved = 0 := by cases cs <;> rfl

@[simp] theorem sweep_unregistered : (sweep policy inUse cs).1.unregistered = [] := by
  cases cs <;> rfl

@[simp] theorem sweep_doomed : (sweep policy inUse cs).1.doomed = cs := by cases cs <;> rfl

@[simp] theorem sweep_takenBack : (sweep policy inUse cs).1.takenBack = [] := by cases cs <;> rfl

@[simp] theorem sweep_minded : (sweep policy inUse cs).1.minded = [] := by cases cs <;> rfl

@[simp] theorem sweep_claimed : (sweep policy inUse cs).1.claimed = [] := by cases cs <;> rfl

@[simp] theorem sweep_delivered : (sweep policy inUse cs).1.delivered = [] := by cases cs <;> rfl

end

/-- What a borrower comes to that finds neither a connection nor room for one, and why. -/
inductive AtFull (policy : Policy) : Patience → Bool → Phase → Prop where
  | turnedDown {p late} (hb : policy.limits.blockWhenExhausted = false) :
      AtFull policy p late (.finished (.error (.poolExhausted policy.name policy.limits.maxTotal)))
  | waitsOn {late} (hb : policy.limits.blockWhenExhausted = true) :
      AtFull policy .endless late .parked
  | elapsed {t late} (hb : policy.limits.blockWhenExhausted = true)
      (h : late = true ∧ t.isNumber = true ∨ t.isOver = true) : AtFull policy (.upTo t) late
        (.finished (.error (.waitElapsed policy.name t.text policy.limits.maxTotal)))
  /-- It stands in line, for a wait that will not come about. -/
  | tooLong {t late} (hb : policy.limits.blockWhenExhausted = true)
      (hn : late = true → t.isNumber = false) (ho : t.isOver = false) (hl : t.isTooLong = true) :
      AtFull policy (.upTo t) late .withdrawing
  | waits {t late} (hb : policy.limits.blockWhenExhausted = true)
      (hn : late = true → t.isNumber = false) (ho : t.isOver = false) (hl : t.isTooLong = false) :
      AtFull policy (.upTo t) late .parked

theorem whenFull_spec (policy : Policy) (p : Patience) (late : Bool) :
    AtFull policy p late (p.whenFull policy late) := by
  cases hb : policy.limits.blockWhenExhausted with
  | false =>
    simp only [Patience.whenFull, hb, Bool.not_false, if_true]
    exact .turnedDown hb
  | true =>
    simp only [Patience.whenFull, hb, Bool.not_true, Bool.false_eq_true, if_false]
    cases p with
    | endless => exact .waitsOn hb
    | upTo t =>
      by_cases ho : late = true ∧ t.isNumber = true ∨ t.isOver = true
      · simp only [Bool.or_eq_true, Bool.and_eq_true, ho, if_true]
        exact .elapsed hb ho
      · obtain ⟨hn, hover⟩ : (late = true → t.isNumber = false) ∧ t.isOver = false := by
          simpa using ho
        simp only [Bool.or_eq_true, Bool.and_eq_true, ho, if_false]
        cases hl : t.isTooLong with
        | false => exact .waits hb hn hover hl
        | true => exact .tooLong hb hn hover hl

theorem whenFull_cases (policy : Policy) (p : Patience) (late : Bool) :
    p.whenFull policy late = .parked ∨ p.whenFull policy late = .withdrawing ∨
      ∃ f, p.whenFull policy late = .finished (.error f) := by
  have e := whenFull_spec policy p late
  generalize p.whenFull policy late = next at e
  cases e with
  | turnedDown | elapsed => exact .inr (.inr ⟨_, rfl⟩)
  | waitsOn | waits => exact .inl rfl
  | tooLong => exact .inr (.inl rfl)

theorem seek_entry (policy : Policy) (p : Patience) (late again : Bool) (core : Core) :
    Entry policy (.seeking late again) core (seek policy p late core).core
      (seek policy p late core).next (seek policy p late core).wake := by
  unfold seek
  split
  · rename_i hc
    exact .turnedAway hc
  · rename_i hc
    have ho : core.closed = false := by simpa using hc
    split
    · rename_i c rest hi
      refine .reuse ho hi ?_
      cases policy.limits.testOnBorrow
      · exact .inr rfl
      · exact .inl rfl
    · rename_i hi
      split
      · rename_i hr
        exact .reserve ho hi hr
      · rename_i hr
        exact .full ho hi (by simpa using hr) (whenFull_cases policy p late)

theorem enrol_entry (policy : Policy) (c : Conn) (core : Core) :
    Entry policy (.enrolling c) core (enrol c core).core (enrol c core).next
      (enrol c core).wake := by
  simp only [enrol]
  split
  · rename_i hc
    exact .refuse hc
  · rename_i hc
    exact .enrol (by simpa using hc)

theorem accept_entry (policy : Policy) (c : Conn) (core : Core) :
    Entry policy (.accepting c) core (accept policy c core).core (accept policy c core).next
      (accept policy c core).wake := by
  unfold accept
  by_cases hu : c ∈ core.inUse
  · by_cases hr : c ∈ core.returning
    · simp only [List.contains_eq_mem, hu, hr, decide_true, Bool.not_true, Bool.or_true, if_true]
      exact .ignore (.inr hr)
    · simp only [List.contains_eq_mem, hu, hr, decide_true, decide_false, Bool.not_true,
        Bool.or_false, Bool.false_eq_true, if_false]
      refine .accept hu hr ?_
      cases core.closed
      · cases policy.limits.testOnReturn
        · exact .inr ⟨_, _, rfl⟩
        · exact .inl rfl
      · exact .inr ⟨_, _, rfl⟩
  · simp only [List.contains_eq_mem, hu, decide_false, Bool.not_false, Bool.true_or, if_true]
    exact .ignore (.inl hu)

theorem settle_entry (policy : Policy) (c : Conn) (keep shut : Bool) (core : Core) :
    Entry policy (.settling c keep shut) core (settle policy c keep shut core).core
      (settle policy c keep shut core).next (settle policy c keep shut core).wake := by
  unfold settle
  by_cases hu : c ∈ core.inUse
  · simp only [List.contains_eq_mem, hu, decide_true, Bool.not_true, Bool.false_eq_true, if_false]
    split
    · rename_i hk
      simp only [Bool.and_eq_true, Bool.not_eq_true'] at hk
      exact .keep hu hk.1.2 hk.2
    · exact .retire hu
  · simp only [List.contains_eq_mem, hu, decide_false, Bool.not_false, if_true]
    exact .forget hu

theorem shut_entry (policy : Policy) (core : Core) :
    Entry policy .shutting core (shut policy core).core (shut policy core).next
      (shut policy core).wake := by
  unfold shut
  split
  · rename_i hc
    exact .shutAgain hc
  · rename_i hc
    exact .shut (by simpa using hc)

/-- Every turn under the lock is in the list. -/
theorem entry_of_hold {policy : Policy} {p : Patience} {phase : Phase} {turn : Core → Turn}
    (h : phase.move policy p = .hold turn) (core : Core) :
    Entry policy phase core (turn core).core (turn core).next (turn core).wake := by
  cases phase <;> simp only [Phase.move, Move.hold.injEq, reduceCtorEq] at h <;> subst h
  case seeking late again => exact seek_entry policy p late again core
  case withdrawing => exact .withdraw
  case dropping c => exact .drop
  case forgoing f => exact .forgo
  case enrolling c => exact enrol_entry policy c core
  case delivering c fresh => exact .deliver
  case announcing c fresh active => exact .announce
  case accepting c => exact accept_entry policy c core
  case settling c keep shut => exact settle_entry policy c keep shut core
  case counting => exact .count
  case tallying active => exact .tally
  case shutting => exact shut_entry policy core

namespace Entry

/-- A borrower parks when there is neither an idle connection nor room for a new one. -/
theorem parks {policy : Policy} {phase next : Phase} {core core' : Core} {wake : Wake}
    (e : Entry policy phase core core' next wake) (hn : next = .parked) :
    (∃ late again, phase = .seeking late again) ∧ wake = .nobody ∧ core' = core ∧
      core.closed = false ∧ core.idle = [] ∧ core.hasRoom policy.limits = false := by
  cases e with
  | full ho hi hr _ => exact ⟨⟨_, _, rfl⟩, rfl, rfl, ho, hi, hr⟩
  | reuse _ _ h => rcases h with rfl | rfl <;> cases hn
  | accept _ _ h => rcases h with rfl | ⟨_, _, rfl⟩ <;> cases hn
  | @shut core _ => cases h : core.idle.reverse <;> rw [h] at hn <;> cases hn
  | _ => cases hn

end Entry

/-! ## Requests and their answers -/

/-- Where an answer can lead a call: the phase before it, what was asked, the answer, and the phase
after it. -/
inductive Sequel (policy : Policy) :
    Phase → (r : Request) → Except Failure r.Reply → Phase → Prop where
  | supplied {c} : Sequel policy .opening .supply (.ok c) (.enrolling c)
  | refused {f} : Sequel policy .opening .supply (.error f) (.forgoing f)
  | healthy {c a} : Sequel policy (.vetting c) (.ping c) a (.delivering c false)
  | stale {c a} : Sequel policy (.vetting c) (.ping c) a (.dropping c)
  | checked {c a keep} : Sequel policy (.checking c) (.ping c) a (.settling c keep false)
  | discarded {c a} : Sequel policy (.discarding c) (.close c) a (.seeking false false)
  | turnedAway {c a} :
      Sequel policy (.refusing c) (.close c) a (.finished (.error (.poolClosed policy.name)))
  | retired {c shut a} : Sequel policy (.retiring c shut) (.close c) a .counting
  | swept {c rest n a} :
      Sequel policy (.sweeping c rest n) (.close c) a (sweep policy n rest).1

/-- Every answer is in the list. -/
theorem sequel_of_ask {policy : Policy} {p : Patience} {phase : Phase} {r : Request}
    {resume : Except Failure r.Reply → Phase × List Notice}
    (h : phase.move policy p = .ask r resume) (a : Except Failure r.Reply) :
    Sequel policy phase r a (resume a).1 := by
  cases phase <;> cases h
  case vetting c =>
    dsimp only
    split
    · exact .healthy
    · exact .stale
  case discarding c => exact .discarded
  case opening =>
    cases a with
    | ok c => exact .supplied
    | error f => exact .refused
  case refusing c => exact .turnedAway
  case checking c =>
    dsimp only
    split
    · exact .checked
    · exact .checked
  case retiring c shut => exact .retired
  case sweeping c rest n => exact .swept

namespace Sequel

variable {policy : Policy} {phase next : Phase} {r : Request} {a : Except Failure r.Reply}

/-- Who is asking is neither parked nor on its way back, and does not park when it is answered. -/
theorem goes_on (e : Sequel policy phase r a next) :
    phase ≠ .parked ∧ phase.isAstir = false ∧ next ≠ .parked := by
  cases e with
  | @swept c rest n => cases rest <;> exact ⟨nofun, rfl, nofun⟩
  | _ => exact ⟨nofun, rfl, nofun⟩

end Sequel

end RedisGateway.Pool
