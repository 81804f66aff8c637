import RedisGateway.Proofs.Manager.Closing
import RedisGateway.Proofs.Manager.FailedInit
import RedisGateway.Proofs.Manager.Loans
import RedisGateway.Proofs.Manager.Script

/-!
The end of a manager. When it is closed, no one is at it any more and every handle was released,
then every client that was ever opened was closed, once, but for those that a failed initialization
leaves open.
-/

namespace RedisGateway

open Event (openedIn closedIn)
open Pool (Phase TrackedSystem)

/-- The handle that a method call has got for its caller. -/
def Stage.handed? : Stage → Option Handle
  | .ended (.handle (.ok h)) => some h
  | _ => none

/-- A method call that is over has nothing but what it handed out. -/
theorem Stage.carried_of_ended {reply : Reply} {h : Handle}
    (hc : (Stage.ended reply).carried? = some h) : (Stage.ended reply).handed? = some h := by
  cases reply with
  | handle r =>
    cases r with
    | ok g => exact hc
    | error f => cases hc
  | _ => cases hc

/-- The caller got a handle of a pooled client, and no one has come to release it. -/
def Caller.Unreleased (x : Caller) : Prop := x.stage.handed?.isSome = true ∧ x.loan ≠ none

instance (x : Caller) : Decidable x.Unreleased := inferInstanceAs (Decidable (_ ∧ _))

namespace ManagerSystem

variable {plan : ManagerPlan} {o : ManagerSystem}

/-- A closing of the manager has returned, no method call is in progress, and every handle was
released. -/
structure Deserted (o : ManagerSystem) : Prop where
  closed : ∃ x ∈ o.callers, x.method = .close
  ended : ∀ x ∈ o.callers, x.Ended
  released : ∀ x ∈ o.callers, ¬x.Unreleased

instance (o : ManagerSystem) : Decidable o.Deserted :=
  decidable_of_iff ((∃ x ∈ o.callers, x.method = .close) ∧ (∀ x ∈ o.callers, x.Ended) ∧
    ∀ x ∈ o.callers, ¬x.Unreleased) ⟨fun h => ⟨h.1, h.2.1, h.2.2⟩, fun h => ⟨h.1, h.2, h.3⟩⟩

namespace Deserted

theorem thread_none (hd : o.Deserted) (ho : o.Orderly plan) {x : Caller} (hx : x ∈ o.callers) :
    x.thread = none := by
  by_contra hn
  obtain ⟨d, resume, hm⟩ := ho.calling x hx hn
  obtain ⟨reply, hs⟩ := hd.ended x hx
  rw [hs] at hm
  cases hm

/-- Every call of the pool is over, so no call has anything in hand. -/
theorem held (hd : o.Deserted) (ho : o.Orderly plan) (hl : o.Loans plan)
    (hands : Phase → List Pool.Conn) (hf : ∀ r, hands (.finished r) = []) (c : Pool.Conn) :
    o.tracked.held hands c = 0 := by
  apply Pool.addUp_eq_zero
  intro t ht
  obtain ⟨i, hi⟩ := List.mem_iff_getElem?.mp ht
  rcases hl.running i t.phase (TrackedSystem.phase?_of_thread hi) with ⟨r, hr⟩ | ⟨x, hx, hthread⟩
  · rw [hr, hf]
    rfl
  · rw [hd.thread_none ho hx] at hthread
    cases hthread

/-- Nothing is lent any more. -/
theorem lent (hd : o.Deserted) (ho : o.Orderly plan) (hl : o.Loans plan) : o.tracked.lent = [] := by
  rw [List.eq_nil_iff_forall_not_mem]
  rintro ⟨i, c⟩ hi
  -- whoever had the loan last has a handle that was not released
  obtain ⟨x, hx, hloan⟩ := List.countP_pos_iff.mp (hl.owned i c hi).2
  obtain ⟨v, hv⟩ := List.mem_iff_getElem?.mp hx
  have hk := hl.keeping v x hv
  have ht := hd.thread_none ho hx
  have hu := hd.released x hx
  obtain ⟨reply, hs⟩ := hd.ended x hx
  rw [beq_iff_eq] at hloan
  rw [Caller.Unreleased, hs, hloan] at hu
  rw [Caller.Keeps, hs, ht, hloan] at hk
  cases hk with
  | holding hc =>
    apply hu
    rw [Stage.carried_of_ended hc]
    exact ⟨rfl, by simp⟩

/-- The pool has closed what was opened for it. -/
theorem pool_closed (hd : o.Deserted) (ho : o.Orderly plan) (hl : o.Loans plan)
    (hs : o.tracked.core.closed = true) (c : ClientId) :
    o.tracked.closed.count c = o.tracked.opened.count c := by
  have hplaces := hl.custody.places c
  have hhands := hl.custody.hands c (by rw [hl.strangers]; exact nofun)
  have h1 := hd.held ho hl Phase.unregistered (fun _ => rfl) c
  have h2 := hd.held ho hl Phase.doomed (fun _ => rfl) c
  have h3 := hd.held ho hl Phase.minded (fun _ => rfl) c
  have h4 := hd.held ho hl Phase.claimed (fun _ => rfl) c
  have h5 : o.tracked.lentOut.count c = 0 := by
    rw [TrackedSystem.lentOut, hd.lent ho hl]
    rfl
  have h6 : o.tracked.core.idle.count c = 0 := by
    rw [hl.shut hs]
    rfl
  omega

/-- There is nothing left for the manager to close. -/
theorem standing (hd : o.Deserted) (hs : o.Shut) (c : ClientId) : o.standing c = 0 := by
  have h1 : o.manager.standing c = 0 := by
    unfold Manager.standing
    split
    · rw [if_pos hs.closed]
    · rfl
  have h2 : (o.callers.countP fun x => x.stage.hangsUp c) = 0 := by
    rw [List.countP_eq_zero]
    intro x hx
    obtain ⟨reply, hr⟩ := hd.ended x hx
    rw [hr]
    exact nofun
  rw [ManagerSystem.standing, h1, h2]

end Deserted

/-- However method calls interleave and whatever clients and their opening come to: once the manager
is closed, nothing is in progress and every handle was released, every client that was ever opened
was closed, once, if no failed initialization left one open. -/
theorem closed_once (hback : plan.RollsBack) (hr : Reachable plan Once o) (hd : o.Deserted) :
    ∀ c ∈ openedIn o.events, (closedIn o.events).count c = 1 := by
  intro c hc
  have ho := hr.orderly
  have hl := hr.loans
  have ha := hr.accounts
  -- the closing that returned has closed the pool too, for no other one is in progress
  have hs : o.Shut := by
    obtain ⟨x, hx, he⟩ := hd.closed
    refine hr.closing.shut ⟨x, hx, he, hd.ended x hx⟩ fun y hy h => ?_
    obtain ⟨reply, hreply⟩ := hd.ended y hy
    cases h.symm.trans hreply
  have hpool : o.tracked.closed.count c = o.tracked.opened.count c := by
    cases hp : o.manager.pool? with
    | none =>
      rw [ha.unopened hp]
    | some p => exact hd.pool_closed ho hl (hs.pool p hp) c
  -- so of what was opened nothing is left, neither to the pool nor to the manager
  have hbalance := ha.balance (ho.made ▸ hback) c
  have hstanding := hd.standing hs c
  have hopened := ha.opened c
  have hpos := List.count_pos_iff.mpr hc
  split at hopened <;> omega

/-- A manager whose pool cannot report its limits is initialized, in vain, and closed. -/
theorem exists_left_open (h : ¬plan.RollsBack) : ∃ o, Reachable plan Once o ∧ o.Deserted ∧
    openedIn o.events ≠ [] ∧ closedIn o.events = [] := by
  obtain ⟨w, news, hi, hb, hclosed, hopened⟩ := Manager.init_leaves_client_open h
  have hevents : w.remote.events = news := hb.events.trans (List.append_nil news)
  let x : Caller := { method := .init "h:1" .none .absent }
  let begun := (fresh plan).welcome x
  let tried := begun.established 0 x (.error .integerTooLong) ⟨{ plan }, w⟩
  let closing := tried.welcome { method := .close }
  have h₁ : Step (fresh plan) (.arrive x.method) begun := .arrive
  have h₂ : Step begun (.establish 0 {}) tried := .establish rfl rfl rfl rfl hi
  have h₃ : Step tried (.arrive .close) closing := .arrive
  have h₄ : Step closing (.look 1) _ := .look rfl rfl
  have hl : Leads Once (fresh plan) _ :=
    .step (.step (.step (.step .refl (by trivial) h₁) (by trivial) h₂) (by trivial) h₃)
      (by trivial) h₄
  rw [← hevents] at hopened hclosed
  refine ⟨_, hl, ⟨⟨_, List.mem_cons_of_mem _ List.mem_cons_self, rfl⟩, ?_, ?_⟩, hopened, hclosed⟩
  · intro y hy
    rcases List.mem_cons.mp hy with rfl | hy
    · exact ⟨_, rfl⟩
    · rw [List.mem_singleton.mp hy]
      exact ⟨_, rfl⟩
  · intro y hy
    rcases List.mem_cons.mp hy with rfl | hy
    · exact fun hu => hu.2 rfl
    · rw [List.mem_singleton.mp hy]
      exact fun hu => hu.2 rfl

/-- Nothing is left open, exactly where the plan sees to it that a failed initialization leaves
nothing open: without a pool, or if the pool opens no client in advance, or if it can report its
limits. However method calls interleave and whatever clients and their opening come to, once the
manager is closed, nothing is in progress and every handle was released, every client that was ever
opened was then closed, once. -/
theorem nothing_left_open_iff (plan : ManagerPlan) :
    (∀ o, Reachable plan Once o → o.Deserted →
      ∀ c ∈ openedIn o.events, (closedIn o.events).count c = 1) ↔
    (plan.pooling = true → plan.limits.minIdle ≤ 0 ∨ plan.limits.isShowable = true) := by
  constructor
  · intro hall
    by_contra hback
    obtain ⟨o, hr, hd, hopened, hclosed⟩ := exists_left_open hback
    obtain ⟨c, hc⟩ := List.exists_mem_of_ne_nil _ hopened
    have := hall o hr hd c hc
    rw [hclosed] at this
    cases this
  · exact fun hback o hr hd => closed_once hback hr hd

/-- The initialization of a pool with a limit that is accepted and cannot be reported fails, and
after the close of the manager a client is still open. -/
theorem client_left_open : Manager.overlongPlan.limits.Valid ∧
    ∃ o, Reachable Manager.overlongPlan Once o ∧ o.Deserted ∧ openedIn o.events ≠ [] ∧
      closedIn o.events = [] :=
  ⟨Pool.overlongLimits_valid, exists_left_open Manager.overlongPlan_not_rollsBack⟩

/-- An initialization fails before one succeeds. The pool is closed while one handle is out and a
client is about to be opened for another one; that client is closed by the call that opened it, the
other one when its handle is released. -/
theorem nothing_left_open_iff_of_late_return : ∃ o,
    Reachable { pooling := true, limits := { minIdle := 1 } } Once o ∧ o.Deserted ∧
      openedIn o.events = [1, 0] ∧ ∀ c ∈ openedIn o.events, (closedIn o.events).count c = 1 := by
  obtain ⟨o, ho, hp⟩ := reachable_of_play { pooling := true, limits := { minIdle := 1 } } Once
    [.arrive (.init "h:1" (.text "") .absent),
      .establish 0 { remote := { refusal := some ⟨.connection, "refused"⟩ } },
      .arrive (.init "h:1" (.text "") .absent), .establish 1 {},
      .arrive .handle, .look 2, .enter 2, .inside (.turn 0), .inside (.turn 0), .inside (.turn 0),
      .back 2, .arrive .handle, .look 3, .enter 3, .inside (.turn 1),
      .arrive .close, .look 4, .enter 4, .inside (.turn 2), .back 4,
      .inside (.supplied 1 1), .inside (.turn 1), .inside (.closed 1 (.ok ())), .back 3,
      .handOver 2, .look 5, .enter 5, .inside (.turn 3), .inside (.turn 3),
      .inside (.closed 3 (.ok ())), .inside (.turn 3), .inside (.turn 3), .back 5]
    (fun o => decide (o.Deserted ∧ openedIn o.events = [1, 0])) (by decide +kernel)
  obtain ⟨hd, hopened⟩ := of_decide_eq_true hp
  have rolls : ManagerPlan.RollsBack { pooling := true, limits := { minIdle := 1 } } :=
    fun _ => .inr (Pool.Limits.isShowable_of_lt (by decide))
  exact ⟨o, ho, hd, hopened, (nothing_left_open_iff _).mpr rolls o ho hd⟩

end ManagerSystem
end RedisGateway
