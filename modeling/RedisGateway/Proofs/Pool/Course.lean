import RedisGateway.Proofs.Pool.Solo
import RedisGateway.Proofs.Pool.Waking

/-!
The course of one call among others. What others do leaves a call in its phase, except that it wakes
a call that is parked; so whatever the call's own moves keep holds at its end, and a call that is
finished stays so.
-/

namespace RedisGateway.Pool

namespace System

variable {s : System} {i j : Nat} {q : Phase} {turn : Core → Turn}

theorem rouseAll_phase? (is : List Nat) (hj : s.phase? j = some q) :
    (is.foldl rouse s).phase? j = some q ∨ (is.foldl rouse s).phase? j = some q.roused := by
  rw [phase?_rouseAll, hj]
  split
  · exact .inr rfl
  · exact .inl rfl

/-- A turn leaves its thread in the next phase, from which it may be woken at once. -/
theorem hold_phase?_own (hi : s.phase? i = some q) :
    (s.hold i turn).1.phase? i = some (turn s.core).next ∨
      (s.hold i turn).1.phase? i = some (turn s.core).next.roused := by
  refine rouseAll_phase? _ ?_
  rw [phase?_setPhase, if_pos rfl]
  exact congrArg (Option.map _) hi

/-- The turn of another thread leaves a thread as it is or wakes it. -/
theorem hold_phase?_else (hi : i ≠ j) (hj : s.phase? j = some q) :
    (s.hold i turn).1.phase? j = some q ∨ (s.hold i turn).1.phase? j = some q.roused := by
  refine rouseAll_phase? _ ?_
  rw [phase?_setPhase, if_neg hi]
  exact hj

theorem lt_of_phase? (hj : s.phase? j = some q) : j < s.threads.length := by
  obtain ⟨t, ht, -⟩ := Option.map_eq_some_iff.mp hj
  exact (List.getElem?_eq_some_iff.mp ht).1

theorem phase?_start_of_some (hj : s.phase? j = some q) (p : Patience) (phase : Phase) :
    (s.start p phase).phase? j = some q := by
  rw [phase?_start, if_neg (Nat.ne_of_lt (lt_of_phase? hj))]
  exact hj

end System

/-- The call that a happening is about, if it has started. -/
def Happening.thread? : Happening → Option Nat
  | .turn i | .supplied i _ | .refused i _ | .pinged i _ | .closed i _ | .lapse i => some i
  | .borrow _ | .giveBack _ | .offer _ | .close => none

/-- The borrow whose connection is given back as a call starts. -/
def Happening.settled? : Happening → Option Nat
  | .giveBack loan => some loan.1
  | _ => none

/-- What can become of a call and of the accounts in one step of the call. -/
inductive Onward (policy : Policy) (q : Phase) (core : Core) : Phase → Core → Prop where
  | late : Onward policy q core q.expired core
  | turned {p turn next} (hm : q.move policy p = .hold turn)
      (hn : next = (turn core).next ∨ next = (turn core).next.roused) :
      Onward policy q core next (turn core).core
  | answered {p r resume a} (hm : q.move policy p = .ask r resume) :
      Onward policy q core (resume a).1 core

namespace TrackedSystem

variable {policy : Policy} {s t : TrackedSystem} {h : Happening} {i j : Nat} {q : Phase}

/-- What happens to others leaves a call as it is or wakes it. -/
theorem Step.elsewhere (st : Step policy s h t) (hj : s.system.phase? j = some q)
    (hn : h.thread? ≠ some j) :
    t.system.phase? j = some q ∨ t.system.phase? j = some q.roused := by
  have other : ∀ {i : Nat}, some i ≠ some j → i ≠ j := fun hn h => hn (congrArg some h)
  cases st with
  | borrow | giveBack | offer | close => exact .inl (System.phase?_start_of_some hj _ _)
  | turn => exact System.hold_phase?_else (other hn) hj
  | supplied | refused | pinged | closed =>
    refine .inl ((System.phase?_setPhase ..).trans ?_)
    rw [if_neg (other hn)]
    exact hj
  | lapse =>
    refine .inl ((System.phase?_expire ..).trans ?_)
    rw [if_neg (other hn)]
    exact hj

/-- What a step makes of the call that it is about. -/
theorem Step.onward (st : Step policy s h t) (hi : s.system.phase? i = some q)
    (hh : h.thread? = some i) :
    ∃ next, t.system.phase? i = some next ∧ Onward policy q s.core next t.core := by
  have asked : ∀ {r : Request} {resume : Except Failure r.Reply → Phase × List Notice},
      s.move? policy i = some (.ask r resume) → ∀ a,
      ∃ next, (s.goOn i (resume a).1).system.phase? i = some next ∧
        Onward policy q s.core next s.core := by
    intro r resume hm a
    obtain ⟨thread, ht, hm⟩ := thread_of_move hm
    cases hi.symm.trans (phase?_of_thread ht)
    refine ⟨(resume a).1, (System.phase?_setPhase ..).trans ?_, .answered hm⟩
    rw [if_pos rfl, phase?_of_thread ht]
    rfl
  cases st with
  | borrow | giveBack | offer | close => cases hh
  | @turn _ turn hm =>
    cases hh
    obtain ⟨thread, ht, hm⟩ := thread_of_move hm
    cases hi.symm.trans (phase?_of_thread ht)
    have hc := System.hold_core s.system i turn
    rcases @System.hold_phase?_own _ _ _ turn hi with hp | hp
    · refine ⟨_, hp, ?_⟩
      show Onward policy _ s.core _ (System.hold ..).1.core
      rw [hc]
      exact .turned hm (.inl rfl)
    · refine ⟨_, hp, ?_⟩
      show Onward policy _ s.core _ (System.hold ..).1.core
      rw [hc]
      exact .turned hm (.inr rfl)
  | supplied hm | refused hm | pinged hm | closed hm =>
    cases hh
    exact asked hm _
  | lapse ht hp =>
    cases hh
    refine ⟨_, (System.phase?_expire ..).trans ?_, .late⟩
    rw [if_pos rfl, hi]
    rfl

/-- What the moves of a call and the end of its time keep, and being woken, holds after any step. -/
theorem Step.keeps_phase {kept : Phase → Prop} (st : Step policy s h t)
    (hi : s.system.phase? i = some q) (hq : kept q) (roused : ∀ {q}, kept q → kept q.roused)
    (onward : ∀ {next core}, Onward policy q s.core next core → kept next) :
    ∃ next, t.system.phase? i = some next ∧ kept next := by
  by_cases hh : h.thread? = some i
  · obtain ⟨next, hn, ho⟩ := st.onward hi hh
    exact ⟨next, hn, onward ho⟩
  · rcases st.elsewhere hi hh with hn | hn
    · exact ⟨_, hn, hq⟩
    · exact ⟨_, hn, roused hq⟩

/-- A call that is finished stays so. -/
theorem Step.finished (st : Step policy s h t) {r : Result}
    (hi : s.system.phase? i = some (.finished r)) : t.system.phase? i = some (.finished r) := by
  obtain ⟨next, hn, rfl⟩ := @Step.keeps_phase _ _ _ _ _ _ (· = .finished r) st hi rfl (by
    rintro q rfl
    rfl) (by
    rintro next core ho
    cases ho with
    | late => rfl
    | turned hm => cases hm
    | answered hm => cases hm)
  exact hn

/-- A borrower at a closed pool is turned away, or has yet to look. -/
theorem Step.seeking (st : Step policy s h t) (hc : s.core.closed = true) {late again : Bool}
    (hi : s.system.phase? i = some (.seeking late again)) :
    (∃ late again, t.system.phase? i = some (.seeking late again)) ∨
      t.system.phase? i = some (.finished (.error (.poolClosed policy.name))) := by
  by_cases hh : h.thread? = some i
  · obtain ⟨next, hn, ho⟩ := st.onward hi hh
    rw [hn]
    generalize t.core = core at ho
    cases ho with
    | late => exact .inl ⟨true, again, rfl⟩
    | @turned p _ _ hm hr =>
      cases hm
      have hs : seek policy p late s.core =
          { core := s.core, next := .finished (.error (.poolClosed policy.name)) } := by
        rw [seek, if_pos hc]
      rw [hs] at hr
      rcases hr with rfl | rfl <;> exact .inr rfl
    | answered hm => cases hm
  · rcases st.elsewhere hi hh with hn | hn <;> exact .inl ⟨late, again, hn⟩

/-- A call that is about to close the pool does so in its turn. -/
theorem Step.shutting (st : Step policy s h t) (hi : s.system.phase? i = some .shutting) :
    t.core.closed = true ∨ t.system.phase? i = some .shutting := by
  by_cases hh : h.thread? = some i
  · obtain ⟨next, hn, ho⟩ := st.onward hi hh
    generalize t.core = core at ho
    cases ho with
    | late => exact .inr hn
    | turned hm =>
      cases hm
      refine .inl ?_
      unfold shut
      split
      · assumption
      · rfl
    | answered hm => cases hm
  · rcases st.elsewhere hi hh with hn | hn <;> exact .inr hn

/-- Nothing is idle in a closed pool. -/
theorem Step.shut_idle (st : Step policy s h t) (hs : s.core.closed = true → s.core.idle = []) :
    t.core.closed = true → t.core.idle = [] := by
  cases st with
  | turn hm =>
    obtain ⟨phase, next, wake, e, -⟩ := turn_held hm
    exact e.shut_idle hs
  | _ => exact hs

/-- A call keeps to what its kind of call does. -/
theorem Step.serves (st : Step policy s h t) {borrower : Bool}
    (hi : s.system.phase? i = some q) (hq : q.serves borrower) :
    ∃ next, t.system.phase? i = some next ∧ next.serves borrower := by
  have roused : ∀ {q : Phase}, q.serves borrower → q.roused.serves borrower := by
    intro q hq
    cases q <;> exact hq
  refine st.keeps_phase hi hq roused ?_
  rintro next core ho
  cases ho with
  | late => cases q <;> exact hq
  | turned hm hn =>
    have he := (entry_of_hold hm s.core).serves hq
    rcases hn with rfl | rfl
    · exact he
    · exact roused he
  | answered hm => exact (sequel_of_ask hm _).serves hq

/-! ## Deliveries -/

/-- A borrow has come to its end and delivered this connection. -/
def Delivered (s : TrackedSystem) (i : Nat) (c : Conn) : Prop :=
  s.system.phase? i = some (.finished (.ok (some c)))

theorem Step.delivered (st : Step policy s h t) {c : Conn} (hi : s.Delivered i c) :
    t.Delivered i c :=
  st.finished hi

theorem rouseAll_length (is : List Nat) (s : System) :
    (is.foldl System.rouse s).threads.length = s.threads.length := by
  induction is generalizing s with
  | nil => rfl
  | cons i is ih =>
    rw [List.foldl_cons, ih]
    exact List.length_modify ..

/-- A call that has started makes no other one start. -/
theorem Step.length (st : Step policy s h t) (hh : h.thread?.isSome = true) :
    t.system.threads.length = s.system.threads.length := by
  cases st with
  | borrow | giveBack | offer | close => cases hh
  | turn =>
    refine (rouseAll_length _ _).trans ?_
    exact List.length_modify ..
  | _ => exact List.length_modify ..

/-- So every call was there before. -/
theorem Step.started (st : Step policy s h t) (hh : h.thread?.isSome = true)
    (ht : t.system.phase? i = some q) : ∃ q, s.system.phase? i = some q := by
  have hl := System.lt_of_phase? ht
  rw [st.length hh] at hl
  exact ⟨_, congrArg (Option.map _) (List.getElem?_eq_getElem hl)⟩

theorem roused_eq_finished {r : Result} (hq : q.roused = .finished r) : q = .finished r := by
  cases q <;> cases hq
  rfl

/-- Only the call that a step is about can come to deliver something. -/
theorem Step.delivers (st : Step policy s h t) (hh : h.thread? = some i) {c : Conn}
    (ht : t.Delivered j c) (hs : ¬s.Delivered j c) : j = i := by
  by_contra hj
  obtain ⟨q, hq⟩ := st.started (by rw [hh]; rfl) ht
  refine hs (hq.trans (congrArg some ?_))
  rcases st.elsewhere hq (by rw [hh]; exact fun h => hj (Option.some.inj h).symm) with hn | hn
  · exact (Option.some.inj (ht.symm.trans hn)).symm
  · exact roused_eq_finished (Option.some.inj (ht.symm.trans hn)).symm

/-- No answer delivers anything. -/
theorem not_delivered_of_ask {r : Request} {resume : Except Failure r.Reply → Phase × List Notice}
    (hm : s.move? policy i = some (.ask r resume)) (a : Except Failure r.Reply) (c : Conn) :
    ¬(s.goOn i (resume a).1).Delivered i c := by
  intro hd
  obtain ⟨thread, ht, hm⟩ := thread_of_move hm
  have hp : (s.goOn i (resume a).1).system.phase? i = some (resume a).1 := by
    refine (System.phase?_setPhase ..).trans ?_
    rw [if_pos rfl, phase?_of_thread ht]
    rfl
  have hn : (resume a).1.delivered = thread.phase.delivered := (sequel_of_ask hm a).hands.2.2.2.2
  rw [← Option.some.inj (hd.symm.trans hp)] at hn
  cases hp : thread.phase with
  | finished r =>
    rw [hp] at hm
    cases hm
  | _ =>
    rw [hp] at hn
    cases hn

/-- What a step of a call delivers is lent. -/
theorem Step.lent (st : Step policy s h t) (hh : h.thread? = some i) (j : Nat) (c : Conn) :
    (j, c) ∈ t.lent ↔ (j, c) ∈ s.lent ∨ t.Delivered j c ∧ ¬s.Delivered j c := by
  have hi := fun hd hs => st.delivers (j := j) (c := c) hh hd hs
  cases st with
  | borrow | giveBack | offer | close => cases hh
  | @turn _ turn hm =>
    cases hh
    obtain ⟨thread, ht, hm⟩ := thread_of_move hm
    have hown := @System.hold_phase?_own _ _ _ turn (phase?_of_thread ht)
    show (j, c) ∈ (turn s.core).next.delivered.map (i, ·) ++ s.lent ↔ _
    rw [List.mem_append, or_comm]
    refine or_congr_right ⟨fun hd => ?_, fun ⟨hd, hs⟩ => ?_⟩
    · obtain ⟨d, hd, he⟩ := List.mem_map.mp hd
      cases he
      have hn : (turn s.core).next = .finished (.ok (some c)) := by
        cases hp : (turn s.core).next with
        | finished r =>
          rw [hp] at hd
          cases r with
          | error f => cases hd
          | ok got =>
            cases got with
            | none => cases hd
            | some d => rw [List.mem_singleton.mp hd]
        | _ =>
          rw [hp] at hd
          cases hd
      refine ⟨?_, fun hs => ?_⟩
      · rw [hn] at hown
        exact hown.elim id id
      · rw [Option.some.inj ((phase?_of_thread ht).symm.trans hs)] at hm
        cases hm
    · cases hi hd hs
      have hn : (turn s.core).next = .finished (.ok (some c)) := by
        rcases hown with hn | hn
        · exact (Option.some.inj (hd.symm.trans hn)).symm
        · exact roused_eq_finished (Option.some.inj (hd.symm.trans hn)).symm
      rw [hn]
      exact List.mem_singleton_self _
  | supplied hm | refused hm | pinged hm | closed hm =>
    cases hh
    refine ⟨.inl, fun hd => hd.resolve_right fun ⟨hd, hs⟩ => ?_⟩
    cases hi hd hs
    exact not_delivered_of_ask hm _ c hd
  | @lapse _ thread _ ht hp =>
    cases hh
    refine ⟨.inl, fun hd => hd.resolve_right fun ⟨hd, hs⟩ => ?_⟩
    cases hi hd hs
    have hn := (System.phase?_expire ..).symm.trans hd
    rw [if_pos rfl, phase?_of_thread ht] at hn
    refine hs ((phase?_of_thread ht).trans ?_)
    cases hq : thread.phase <;> rw [hq] at hn <;> cases hn
    rfl

/-! ## What others can rely on -/

/-- A pool some time later, for those who have something to do with it: what is lent stays lent,
unless it is what was given back; calls keep to their kind; and what they deliver is lent. -/
structure Follows (s t : TrackedSystem) (settled : Option Nat) : Prop where
  lent : ∀ i c, (i, c) ∈ s.lent → settled ≠ some i → (i, c) ∈ t.lent
  serves : ∀ i q borrower, s.system.phase? i = some q → q.serves borrower →
    ∃ next, t.system.phase? i = some next ∧ next.serves borrower
  finished : ∀ i r, s.system.phase? i = some (.finished r) →
    t.system.phase? i = some (.finished r)
  delivered : ∀ i q c, s.system.phase? i = some q → t.Delivered i c →
    s.Delivered i c ∨ (i, c) ∈ t.lent

theorem Follows.refl (s : TrackedSystem) (settled : Option Nat) : Follows s s settled :=
  ⟨fun _ _ h _ => h, fun _ q _ hi hq => ⟨q, hi, hq⟩, fun _ _ h => h, fun _ _ _ _ h => .inl h⟩

/-- A call that starts leaves the others alone. -/
theorem start_follows (s : TrackedSystem) (p : Patience) (phase : Phase) {t : TrackedSystem}
    {settled : Option Nat} (ht : t.system = s.system.start p phase)
    (hl : ∀ i c, (i, c) ∈ s.lent → settled ≠ some i → (i, c) ∈ t.lent) : Follows s t settled := by
  refine ⟨hl, fun i q borrower hi hq => ⟨q, ?_, hq⟩, fun i r hi => ?_, fun i q c hi hd => .inl ?_⟩
  · rw [ht]
    exact System.phase?_start_of_some hi p phase
  · rw [ht]
    exact System.phase?_start_of_some hi p phase
  · have hn := System.phase?_start_of_some hi p phase
    rw [← ht] at hn
    exact hi.trans (hn.symm.trans hd)

theorem Step.follows (st : Step policy s h t) : Follows s t h.settled? := by
  have same : ∀ {i : Nat} {c : Conn} {settled : Option Nat}, (i, c) ∈ s.lent →
      settled ≠ some i → (i, c) ∈ s.lent := fun h _ => h
  cases hh : h.thread? with
  | none =>
    cases st with
    | borrow | offer | close => exact start_follows s _ _ rfl fun _ _ => same
    | @giveBack loan =>
      refine start_follows s _ _ rfl fun i c hl hn => ?_
      have hne : (i, c) ≠ loan := by
        rintro rfl
        exact hn rfl
      exact (List.mem_erase_of_ne hne).mpr hl
    | _ => cases hh
  | some j =>
    refine ⟨fun i c hl _ => (st.lent hh i c).mpr (.inl hl), fun i q borrower => st.serves,
      fun i r => st.finished, ?_⟩
    intro i q c hi hd
    by_cases hs : s.Delivered i c
    · exact .inl hs
    · exact .inr ((st.lent hh i c).mpr (.inr ⟨hd, hs⟩))

theorem Step.strangers (st : Step policy s h t) (hn : ∀ c, h ≠ .offer c) :
    t.strangers = s.strangers := by
  cases st with
  | offer => exact absurd rfl (hn _)
  | _ => rfl

end TrackedSystem
end RedisGateway.Pool
