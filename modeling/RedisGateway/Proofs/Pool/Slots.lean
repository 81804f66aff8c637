import Mathlib.Data.List.Perm.Basic
import RedisGateway.Proofs.Pool.Capacity
import RedisGateway.Proofs.Pool.Course
import RedisGateway.Proofs.Pool.Custody

/-!
The slots of a pool and who occupies them. As long as callers give back what they borrowed, once
each, the accounts are what the calls in progress and the borrowers make them: a place is reserved
for every borrow that opens a connection, and a connection is in use for every one that is lent,
that a borrow has yet to deliver or that is on its way back. A borrow that fails leaves nothing
behind.
-/

namespace RedisGateway.Pool

namespace Phase

/-- Between reserving a place and filling it or giving it up. -/
def isReserving : Phase → Bool
  | .opening | .forgoing _ | .enrolling _ => true
  | _ => false

/-- The connection in use that a borrow has taken and has yet to deliver. -/
def undelivered : Phase → List Conn
  | .vetting c | .dropping c | .delivering c _ | .announcing c .. => [c]
  | _ => []

/-- The connection that a return is about, until it is settled. -/
def onWayBack : Phase → List Conn
  | .accepting c | .checking c | .settling c .. => [c]
  | _ => []

theorem reserved_eq (phase : Phase) : phase.reserved = if phase.isReserving then 1 else 0 := by
  cases phase <;> rfl

/-- What calls look after or were asked to take back is undelivered or on its way back. -/
theorem minded_add_claimed (phase : Phase) (c : Conn) :
    phase.minded.count c + phase.claimed.count c =
      phase.undelivered.count c + phase.onWayBack.count c := by
  cases phase <;> simp only [minded, claimed, undelivered, onWayBack, List.count_nil] <;> omega

end Phase

/-- What calls have in hand, in one of the senses of having it in hand. -/
def inHand (hands : Phase → List Conn) (calls : List Thread) : List Conn :=
  calls.flatMap fun t => hands t.phase

/-- Whatever is additive over lists of connections adds up over the calls. -/
theorem measure_inHand {measure : List Conn → Nat} (hn : measure [] = 0)
    (ha : ∀ cs ds, measure (cs ++ ds) = measure cs + measure ds) (hands : Phase → List Conn)
    (calls : List Thread) :
    measure (inHand hands calls) = addUp (fun phase => measure (hands phase)) calls := by
  induction calls with
  | nil => exact hn
  | cons t calls ih =>
    simp only [inHand, List.flatMap_cons, addUp] at ih ⊢
    rw [ha, ih]

theorem count_inHand (hands : Phase → List Conn) (calls : List Thread) (c : Conn) :
    (inHand hands calls).count c = addUp (fun phase => (hands phase).count c) calls :=
  measure_inHand List.count_nil (fun _ _ => List.count_append) hands calls

theorem length_inHand (hands : Phase → List Conn) (calls : List Thread) :
    (inHand hands calls).length = addUp (fun phase => (hands phase).length) calls :=
  measure_inHand rfl (fun _ _ => List.length_append) hands calls

theorem addUp_reserved (calls : List Thread) :
    addUp Phase.reserved calls = calls.countP fun t => t.phase.isReserving := by
  induction calls with
  | nil => rfl
  | cons t calls ih =>
    simp only [addUp, List.countP_cons, ih, t.phase.reserved_eq]
    omega

theorem addUp_add (f g : Phase → Nat) (calls : List Thread) :
    addUp (fun phase => f phase + g phase) calls = addUp f calls + addUp g calls := by
  induction calls with
  | nil => rfl
  | cons t calls ih =>
    simp only [addUp, ih]
    omega

/-- A call that has nothing in hand makes no difference. -/
theorem inHand_eraseIdx {hands : Phase → List Conn} {calls : List Thread} {i : Nat} {t : Thread}
    (hi : calls[i]? = some t) (ht : hands t.phase = []) :
    inHand hands (calls.eraseIdx i) = inHand hands calls := by
  induction calls generalizing i with
  | nil => cases hi
  | cons u calls ih =>
    cases i with
    | zero =>
      cases hi
      simp only [inHand, List.eraseIdx_cons_zero, List.flatMap_cons, ht, List.nil_append]
    | succ i =>
      have := ih hi
      simp only [inHand, List.eraseIdx_cons_succ, List.flatMap_cons] at this ⊢
      rw [this]

theorem inHand_eq_nil {hands : Phase → List Conn} {calls : List Thread}
    (h : ∀ t ∈ calls, hands t.phase = []) : inHand hands calls = [] :=
  List.flatMap_eq_nil_iff.mpr h

namespace TrackedSystem

/-- The accounts are what these calls and the borrowers make them. -/
structure AccountedBy (s : TrackedSystem) (calls : List Thread) : Prop where
  creating : s.core.creating = calls.countP fun t => t.phase.isReserving
  returning : s.core.returning.Nodup ∧
    ∀ c, c ∈ s.core.returning ↔ ∃ t ∈ calls, c ∈ t.phase.takenBack
  inUse : s.core.inUse.Nodup ∧ s.core.inUse.Perm (s.lentOut ++ inHand Phase.undelivered calls ++
    (inHand Phase.onWayBack calls).filter (· ∈ s.opened))

variable {policy : Policy} {s t : TrackedSystem} {h : Happening}

theorem Reachable.places {rule : Rule} (hs : Reachable policy rule s) :
    s.core.creating = s.system.tally Phase.reserved := by
  obtain ⟨s₀, h₀, hl⟩ := hs
  induction hl with
  | refl =>
    obtain ⟨idle, -, -, rfl⟩ := h₀.shape
    rfl
  | step _ _ st ih => exact places_step ih st

theorem Step.lent_delivered (st : Step policy s h t)
    (hs : ∀ i c, (i, c) ∈ s.lent → s.Delivered i c) : ∀ i c, (i, c) ∈ t.lent → t.Delivered i c := by
  intro i c hl
  cases hh : h.thread? with
  | some j =>
    rcases (st.lent hh i c).mp hl with hl | ⟨hd, -⟩
    · exact st.delivered (hs i c hl)
    · exact hd
  | none =>
    -- a call that starts lends nothing
    have hl : (i, c) ∈ s.lent := by
      cases st with
      | giveBack => exact List.mem_of_mem_erase hl
      | borrow | offer | close => exact hl
      | _ => cases hh
    exact st.delivered (hs i c hl)

/-- What is lent was delivered by the borrow that it is lent by. -/
theorem Reachable.delivered {rule : Rule} (hs : Reachable policy rule s) :
    ∀ i c, (i, c) ∈ s.lent → s.Delivered i c := by
  obtain ⟨s₀, h₀, hl⟩ := hs
  induction hl with
  | refl =>
    obtain ⟨idle, -, -, rfl⟩ := h₀.shape
    exact nofun
  | step _ _ st ih => exact st.lent_delivered ih

/-- Of the connections of the pool, those in use are those lent and those in the hands of calls. -/
theorem Custody.count_inUse (hs : Custody s) (c : Conn) :
    s.core.inUse.count c = s.lentOut.count c + s.held Phase.undelivered c +
      if c ∈ s.opened then s.held Phase.onWayBack c else 0 := by
  have hsum : s.held Phase.minded c + s.held Phase.claimed c =
      s.held Phase.undelivered c + s.held Phase.onWayBack c := by
    simp only [held, System.tally, ← addUp_add, Phase.minded_add_claimed]
  by_cases ho : c ∈ s.opened
  · have hn : c ∉ s.strangers := fun hf => hs.foreign c hf ho
    have hh := hs.hands c hn
    rw [if_pos ho]
    omega
  · -- a connection that the pool did not open is in use for no one
    have hz := hs.stranger ho
    have hu : s.held Phase.undelivered c ≤ s.held Phase.minded c := by
      refine addUp_le_addUp (fun phase => ?_) s.system.threads
      cases phase <;> first | exact Nat.le_refl _ | exact Nat.zero_le _
    have hm : s.held Phase.minded c + s.lentOut.count c = 0 := by
      by_cases hf : c ∈ s.strangers
      · exact hs.untouched c hf
      · have := hs.hands c hf
        omega
    rw [if_neg ho]
    omega

theorem Custody.accounted (hs : Custody s)
    (hp : s.core.creating = s.system.tally Phase.reserved) : AccountedBy s s.system.threads := by
  have one : ∀ c, s.core.inUse.count c ≤ 1 := by
    intro c
    have := hs.le_one c
    omega
  refine ⟨hp.trans (addUp_reserved _), ⟨?_, ?_⟩, ⟨List.nodup_iff_count.mpr one, ?_⟩⟩
  · -- two returns of one connection would both look after it, and it is in use but once
    refine List.nodup_iff_count.mpr fun c => ?_
    have h1 := hs.returning c
    have h2 := takenBack_le_minded c s
    by_cases hf : c ∈ s.strangers
    · have := hs.untouched c hf
      omega
    · have h3 := hs.hands c hf
      have h4 := one c
      omega
  · intro c
    have hc : s.core.returning.count c = (inHand Phase.takenBack s.system.threads).count c :=
      (hs.returning c).trans (count_inHand ..).symm
    rw [← List.count_pos_iff, hc, List.count_pos_iff, inHand, List.mem_flatMap]
  · refine List.perm_iff_count.mpr fun c => ?_
    rw [hs.count_inUse c, List.count_append, List.count_append, count_inHand]
    by_cases ho : c ∈ s.opened
    · rw [if_pos ho, List.count_filter (by simpa using ho), count_inHand]
      rfl
    · have hf :
          (List.filter (· ∈ s.opened) (inHand Phase.onWayBack s.system.threads)).count c = 0 :=
        List.count_eq_zero.mpr fun hc => ho (by simpa using (List.mem_filter.mp hc).2)
      rw [if_neg ho, hf]
      rfl

/-- A call that has nothing in hand is not needed to account for anything. -/
theorem AccountedBy.without {calls : List Thread} (ha : AccountedBy s calls) {i : Nat} {t : Thread}
    (hi : calls[i]? = some t) (hr : t.phase.isReserving = false) (ht : t.phase.takenBack = [])
    (hu : t.phase.undelivered = []) (hb : t.phase.onWayBack = []) :
    AccountedBy s (calls.eraseIdx i) := by
  refine ⟨?_, ⟨ha.returning.1, fun c => ?_⟩, ⟨ha.inUse.1, ?_⟩⟩
  · obtain ⟨hl, rfl⟩ := List.getElem?_eq_some_iff.mp hi
    rw [ha.creating, ← (List.getElem_cons_eraseIdx_perm hl).countP_eq, List.countP_cons, hr]
    rfl
  · rw [ha.returning.2 c]
    have h1 := inHand_eraseIdx hi ht
    have hm : ∀ calls : List Thread, (∃ t ∈ calls, c ∈ t.phase.takenBack) ↔
        c ∈ inHand Phase.takenBack calls := fun calls => List.mem_flatMap.symm
    rw [hm, hm, h1]
  · rw [inHand_eraseIdx hi hu, inHand_eraseIdx hi hb]
    exact ha.inUse.2

/-- A call that is over has nothing in hand. -/
theorem AccountedBy.without_finished {calls : List Thread} (ha : AccountedBy s calls) {i : Nat}
    {p : Patience} {r : Result} (hi : calls[i]? = some ⟨p, .finished r⟩) :
    AccountedBy s (calls.eraseIdx i) :=
  ha.without hi rfl rfl rfl rfl

/-- While no call is in progress, the borrowers account for everything. -/
theorem AccountedBy.at_rest {calls : List Thread} (ha : AccountedBy s calls)
    (hf : ∀ t ∈ calls, ∃ r, t.phase = .finished r) :
    s.core.creating = 0 ∧ s.core.returning = [] ∧ s.core.inUse.Perm s.lentOut := by
  have none : ∀ hands : Phase → List Conn, (∀ r, hands (.finished r) = []) →
      ∀ t ∈ calls, hands t.phase = [] := by
    intro hands hh t ht
    obtain ⟨r, hr⟩ := hf t ht
    rw [hr, hh]
  refine ⟨?_, ?_, ?_⟩
  · rw [ha.creating, List.countP_eq_zero]
    intro t ht
    obtain ⟨r, hr⟩ := hf t ht
    rw [hr]
    exact Bool.false_ne_true
  · refine List.eq_nil_iff_forall_not_mem.mpr fun c hc => ?_
    obtain ⟨t, ht, hc⟩ := (ha.returning.2 c).mp hc
    rw [none Phase.takenBack (fun _ => rfl) t ht] at hc
    exact absurd hc List.not_mem_nil
  · have h1 := ha.inUse.2
    rw [inHand_eq_nil (none Phase.undelivered fun _ => rfl),
      inHand_eq_nil (none Phase.onWayBack fun _ => rfl)] at h1
    simpa using h1

/-- Every slot is accounted for, in every state that callers can bring about who give back what
they borrowed, once each: by a borrow that opens a connection, by a return between its two turns, by
a borrower, or by a call on the way to or from one. While no call is in progress only what is lent
is in use, and a borrow that failed lends nothing and occupies nothing. -/
theorem slots_accounted (hs : Reachable policy Fair s) :
    AccountedBy s s.system.threads ∧
    (∀ i c, (i, c) ∈ s.lent → s.Delivered i c) ∧
    ((∀ t ∈ s.system.threads, ∃ r, t.phase = .finished r) →
      s.core.creating = 0 ∧ s.core.returning = [] ∧ s.core.inUse.Perm s.lentOut ∧
        s.core.inUse.length = s.lent.length) ∧
    ∀ i f, s.system.phase? i = some (.finished (.error f)) →
      (∀ c, (i, c) ∉ s.lent) ∧ AccountedBy s (s.system.threads.eraseIdx i) := by
  have ha := hs.custody.accounted hs.places
  refine ⟨ha, hs.delivered, ?_, ?_⟩
  · intro hf
    obtain ⟨h1, h2, h3⟩ := ha.at_rest hf
    exact ⟨h1, h2, h3, h3.length_eq.trans (List.length_map ..)⟩
  · intro i f hi
    refine ⟨fun c hl => ?_, ?_⟩
    · have hd := hs.delivered i c hl
      rw [Delivered, hi] at hd
      cases hd
    · obtain ⟨⟨p, phase⟩, ht, rfl⟩ := Option.map_eq_some_iff.mp hi
      exact ha.without_finished ht

/-- Two connections, of which one is opened in advance, and all are checked. -/
def pair : Policy where
  name := "pair"
  limits :=
    { maxTotal := 2, maxIdle := 1, minIdle := 1, testOnBorrow := true, testOnReturn := true }

theorem pair_justOpened :
    JustOpened pair { system := { core := { idle := [0] } }, opened := [0] } :=
  ⟨Nat, .counting, 0, 1, { idle := [0] },
    openPool_of_isShowable (Limits.isShowable_of_lt (by decide)) rfl, by decide, rfl⟩

/-- The first connection is given back and checked. One borrow has failed to open another one, a
second borrow is about to, and something else was offered to the pool. -/
theorem slots_accounted_of_pair : ∃ s, Reachable pair Fair s ∧ s.core =
      { inUse := [0], returning := [0], creating := 1 } ∧ s.lent = [] ∧ s.strangers = [7] ∧
    AccountedBy s s.system.threads ∧
    (∀ i c, (i, c) ∈ s.lent → s.Delivered i c) ∧
    ((∀ t ∈ s.system.threads, ∃ r, t.phase = .finished r) →
      s.core.creating = 0 ∧ s.core.returning = [] ∧ s.core.inUse.Perm s.lentOut ∧
        s.core.inUse.length = s.lent.length) ∧
    ∀ i f, s.system.phase? i = some (.finished (.error f)) →
      (∀ c, (i, c) ∉ s.lent) ∧ AccountedBy s (s.system.threads.eraseIdx i) := by
  obtain ⟨s, hs, hp⟩ := reachable_of_play Fair pair_justOpened
    [.borrow none, .turn 0, .borrow none, .turn 1, .pinged 0 (.ok (.flag true)), .turn 0, .turn 0,
      .giveBack (0, 0), .turn 2, .offer 7, .refused 1 ⟨.timeout, "too late"⟩, .turn 1,
      .borrow none, .turn 4]
    (fun s => s.core == { inUse := [0], returning := [0], creating := 1 } && s.lent == [] &&
      s.strangers == [7]) (by decide)
  simp only [Bool.and_eq_true, beq_iff_eq] at hp
  exact ⟨s, hs, hp.1.1, hp.1.2, hp.2, slots_accounted hs⟩

/-! ## Connections that stand open -/

/-- What was opened and not closed is in the accounts, or on its way there or out of there. -/
theorem Custody.opened_perm (hs : Custody s) : s.opened.Perm (s.core.idle ++ s.core.inUse ++
    (inHand Phase.unregistered s.system.threads ++ inHand Phase.doomed s.system.threads) ++
      s.closed) := by
  refine List.perm_iff_count.mpr fun c => ?_
  simp only [List.count_append, count_inHand]
  exact (hs.places c).symm

theorem length_unregistered_le (calls : List Thread) :
    (inHand Phase.unregistered calls).length ≤ addUp Phase.reserved calls := by
  rw [length_inHand]
  refine addUp_le_addUp (fun phase => ?_) calls
  cases phase <;> first | exact Nat.le_refl _ | exact Nat.zero_le _

/-- No more connections stand open than the limit allows and calls are about to close. A call that
discards a connection takes it out of the accounts first and closes it after that, so that the
limit alone is no bound. -/
theorem open_bounded (hv : policy.limits.Valid) (hs : Reachable policy Fair s)
    (hm : 0 ≤ policy.limits.maxTotal) : (s.opened.length : Int) ≤
      policy.limits.maxTotal + (inHand Phase.doomed s.system.threads).length + s.closed.length := by
  have hl := hs.custody.opened_perm.length_eq
  have hp := hs.places
  have hu := length_unregistered_le s.system.threads
  have ht := (hs.sound hv fun _ _ hr => hr.1).total hm
  simp only [List.length_append] at hl
  simp only [Core.total] at ht
  simp only [System.tally] at hp
  omega

/-- A connection that does not answer leaves the accounts, and before it is closed another borrow
opens a second one, where there is to be only one. -/
theorem two_open_where_one_allowed : Policy.single.limits.maxTotal = 1 ∧
    ∃ s, Reachable .single Fair s ∧ s.opened = [1, 0] ∧ s.closed = [] := by
  obtain ⟨s, hs, hp⟩ := reachable_of_play Fair single_justOpened
    [.borrow none, .turn 0, .turn 0, .turn 0, .giveBack (0, 0), .turn 1,
      .pinged 1 (.ok (.flag false)), .turn 1, .borrow none, .turn 2, .supplied 2 1, .turn 2]
    (fun s => s.opened == [1, 0] && s.closed == []) (by decide)
  simp only [Bool.and_eq_true, beq_iff_eq] at hp
  exact ⟨rfl, s, hs, hp⟩

end TrackedSystem
end RedisGateway.Pool
