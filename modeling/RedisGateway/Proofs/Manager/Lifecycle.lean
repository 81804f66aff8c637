import RedisGateway.Proofs.Manager.AfterClose
import RedisGateway.Proofs.Manager.Script

/-!
The life of a manager. It is initialized at most once, and from then on hands out handles of its one
client or of its one pool; once it is closed, whoever comes later is turned away.
-/

namespace RedisGateway

open Event (openedIn closedIn)

/-! ## Initialized once -/

def MethodCall.isInit : MethodCall → Bool
  | .init .. => true
  | _ => false

/-- An initialization that has succeeded. -/
def Stage.initialized (e : MethodCall) : Stage → Bool
  | .ended (.done (.ok _)) => e.isInit
  | _ => false

theorem Stage.initialized_eq_false {e : MethodCall} (he : e.isInit = false) (stage : Stage) :
    stage.initialized e = false := by
  unfold Stage.initialized
  split
  · exact he
  · rfl

/-- One facade for every initialization that succeeds. -/
theorem Stage.Transition.initialized {m m' : Manager} {stage next : Stage} {e : MethodCall}
    (g : Stage.Transition m stage m' next) (hb : stage.Belongs e) :
    stage.initialized e = false ∧
      (if next.initialized e then 1 else 0) + (if m.facade.isSome then 1 else 0) =
        if m'.facade.isSome then 1 else 0 := by
  have other : e.isInit = false → m'.facade = m.facade → stage.initialized e = false ∧
      (if next.initialized e then 1 else 0) + (if m.facade.isSome then 1 else 0) =
        if m'.facade.isSome then 1 else 0 := by
    intro he hf
    rw [initialized_eq_false he, initialized_eq_false he, hf]
    exact ⟨rfl, Nat.zero_add _⟩
  cases g with
  | init ha hc =>
    cases hb
    refine ⟨rfl, ?_⟩
    cases ha with
    | failed hm =>
      rw [hm]
      exact Nat.zero_add _
    | succeeded ho hf hm =>
      rw [hm, hf]
      rfl
  | refused hs | direct hs | borrow hs => exact other (by cases hs <;> cases hb <;> rfl) rfl
  | _ => exact other (by cases hb <;> rfl) rfl

/-- The handle that a method call has got, to hand it out or for a call. -/
def Stage.obtained? : Stage → Option Handle
  | .sending h _ | .leaving h _ | .ended (.handle (.ok h)) => some h
  | _ => none

theorem Stage.Fits.hands {m : Manager} {stage : Stage} (hs : stage.Fits m) {g : Handle}
    (hg : g ∈ stage.obtained?) : m.Hands g := by
  unfold Stage.obtained? at hg
  split at hg
  · cases hg
    exact hs
  · cases hg
    exact hs
  · cases hg
    exact hs
  · cases hg

/-- A method call for a handle that ended without one. -/
def Stage.turnedAway? : Stage → Option Fault
  | .ended (.handle (.error f)) => some f
  | _ => none

theorem Stage.eq_of_turnedAway? {stage : Stage} {f : Fault} (h : stage.turnedAway? = some f) :
    stage = .ended (.handle (.error f)) := by
  unfold turnedAway? at h
  split at h
  · cases h
    rfl
  · cases h

namespace ManagerSystem

variable {plan : ManagerPlan} {o o' : ManagerSystem} {h : Happening}

/-- How many initializations have succeeded. -/
def initializations (o : ManagerSystem) : Nat :=
  o.callers.countP fun x => x.stage.initialized x.method

theorem Step.initializations (st : Step o h o') (ho : o.Orderly plan)
    (hi : o.initializations = if o.manager.facade.isSome then 1 else 0) :
    o'.initializations = if o'.manager.facade.isSome then 1 else 0 := by
  rcases st.counts (fun e stage => stage.initialized e) (fun _ => rfl) with
    ⟨hm, hc⟩ | ⟨x, hx, next, hg, hc⟩
  · rw [hm, ← hi]
    exact hc
  · obtain ⟨h1, h2⟩ := hg.initialized (ho.belongs x hx)
    rw [h1] at hc
    have h3 : o'.initializations + 0 = o.initializations + _ := hc
    omega

/-! ## One client without a pool -/

/-- Without a pool a client is opened with the facade, and no other one. -/
theorem Step.opened (st : Step o h o') (ho : o.Orderly plan) (hp : plan.pooling = false)
    (hi : (openedIn o.events).length = if o.manager.facade.isSome then 1 else 0) :
    (openedIn o'.events).length = if o'.manager.facade.isSome then 1 else 0 := by
  have none : ∀ {p : ConnectionPool}, o.manager.pool? ≠ some p := by
    intro p h
    exact absurd (hp.symm.trans (ho.pool h).1) nofun
  cases st with
  | @look v x f hv hm =>
    show (openedIn o.events).length = if (f o.manager).1.facade.isSome then 1 else 0
    rw [Stage.facade_of_look hm, hi]
  | @establish v x w hosts password options r s hv hm hc he hr =>
    show (openedIn s.world.remote.events).length = if s.manager.facade.isSome then 1 else 0
    cases Manager.init_attempt hr with
    | failed hm hb hc hd =>
      rw [hb.events, hd (by rw [ho.made, hp]), he, hm, ← hi]
      rfl
    | succeeded hopen hf hm hb hest =>
      cases hest with
      | direct hp =>
        rw [hb.events, he, hm]
        rw [hf] at hi
        exact congrArg (· + 1) hi
      | pooled hpool =>
        rw [ho.made] at hpool
        cases hp.symm.trans hpool
  | enter hv hm ht hp => exact absurd hp none
  | inside hp => exact absurd hp none
  | _ => exact hi

/-! ## Handles -/

theorem Orderly.hands (ho : o.Orderly plan) {g : Handle} (hg : o.manager.Hands g) :
    g.topology = plan.topology ∧ g.pooled = plan.pooling := by
  obtain ⟨f, hf, ht, hb⟩ := hg
  obtain ⟨hft, hfb⟩ := ho.facade f hf
  refine ⟨ht.trans hft, ?_⟩
  cases hfk : f.backend with
  | direct c =>
    rw [hfk] at hb hfb
    exact hb.2.trans hfb.symm
  | pooled p =>
    rw [hfk] at hb hfb
    exact hb.trans hfb.1.symm

/-- Without a pool all handles are one. -/
theorem Orderly.hands_unique (ho : o.Orderly plan) (hp : plan.pooling = false) {g g' : Handle}
    (hg : o.manager.Hands g) (hg' : o.manager.Hands g') : g = g' := by
  have h1 := ho.hands hg
  have h2 := ho.hands hg'
  obtain ⟨f, hf, -, hb⟩ := hg
  obtain ⟨f', hf', -, hb'⟩ := hg'
  cases hf.symm.trans hf'
  have hfb := (ho.facade f hf).2
  cases hfk : f.backend with
  | pooled p =>
    rw [hfk] at hfb
    cases hp.symm.trans hfb.1
  | direct c =>
    rw [hfk] at hb hb'
    obtain ⟨t, client, pooled⟩ := g
    obtain ⟨t', client', pooled'⟩ := g'
    simp only at h1 h2 hb hb'
    rw [h1.1, h2.1, hb.1, hb.2, hb'.1, hb'.2]

/-! ## The whole life -/

/-- A closing of the manager has returned, and no other one is amid closing the pool. `alone` stands
for initializing and closing being serialised by their lock: `close` gives the lock back before it
closes the pool, so that of two closings at once the later one can return while the pool is open. -/
structure ClosingReturned (o : ManagerSystem) : Prop where
  returned : ∃ x ∈ o.callers, x.method = .close ∧ x.Ended
  alone : ∀ x ∈ o.callers, x.stage ≠ .shutting true

instance : ∀ stage : Stage, Decidable (stage = .shutting true)
  | .shutting true => isTrue rfl
  | .shutting false => isFalse nofun
  | .starting _ | .acquiring _ | .borrowing .. | .sending .. | .leaving .. | .returning ..
  | .hangingUp _ | .ended _ => isFalse nofun

instance (o : ManagerSystem) : Decidable o.ClosingReturned :=
  decidable_of_iff ((∃ x ∈ o.callers, x.method = .close ∧ x.Ended) ∧
    ∀ x ∈ o.callers, x.stage ≠ .shutting true) ⟨fun h => ⟨h.1, h.2⟩, fun h => ⟨h.1, h.2⟩⟩

/-- What becomes of a method call that needs an open manager and comes when it is closed. -/
structure TurnedAway (family : Family) (o : ManagerSystem) (v : Nat) (x : Caller) : Prop where
  /-- It ends in a fault of this family, -/
  fault : ∀ reply, x.stage = .ended reply → ∃ f, reply.fault? = some f ∧ f.family? = some family
  /-- to which it can always get by itself, -/
  can_end : o.CanEnd v
  /-- and on the way it asks nothing of the remote side. -/
  quiet : ∀ h o', o.Acts v h → Step o h o' → o'.events = o.events

/-- The life of a manager, as it is seen at any time. -/
structure Lifecycle (plan : ManagerPlan) (o : ManagerSystem) : Prop where
  /-- Codec, topology, pooling and limits are those of the plan. -/
  made : o.manager.plan = plan
  /-- One initialization succeeds, or none has so far, -/
  once : o.initializations = if o.manager.facade.isSome then 1 else 0
  /-- and it leaves a pool or a client, as planned, -/
  backend : ∀ f, o.manager.facade = some f →
    f.pool?.isSome = plan.pooling ∧ f.directHandle?.isSome = !plan.pooling
  /-- for good. -/
  lasting : ∀ f, o.manager.facade = some f → ∀ o', Leads Unruled o o' →
    o'.manager.facade = some f
  /-- Every handle says where it comes from. -/
  handles : ∀ x ∈ o.callers, ∀ g ∈ x.stage.obtained?,
    g.topology = plan.topology ∧ g.pooled = plan.pooling
  /-- Without a pool there is one client, -/
  client : plan.pooling = false → (openedIn o.events).length = o.initializations
  /-- and one handle. -/
  handle : plan.pooling = false → ∀ o', Leads Unruled o o' →
    ∀ x ∈ o.callers, ∀ g ∈ x.stage.obtained?,
    ∀ x' ∈ o'.callers, ∀ g' ∈ x'.stage.obtained?, g = g'
  /-- Whoever comes after a closing is turned away. -/
  closed : o.ClosingReturned → ∀ o', Leads Unruled o o' → ∀ v x, o.callers.length ≤ v →
    o'.callers[v]? = some x → x.method.NeedsOpen plan →
    o'.TurnedAway (x.method.lateFamily o.manager) v x

theorem Leads.facade_of_closed {rule : Rule} (hl : Leads rule o o')
    (hc : o.manager.closed = true) :
    o'.manager.closed = true ∧ o'.manager.facade = o.manager.facade :=
  hl.keeps ⟨hc, rfl⟩ fun _ st hk => ⟨st.closed hk.1, (st.facade_of_closed hk.1).trans hk.2⟩

theorem Reachable.initializations {rule : Rule} (hr : Reachable plan rule o) :
    o.initializations = if o.manager.facade.isSome then 1 else 0 :=
  hr.keeps rfl fun ho _ st => st.initializations ho

theorem Reachable.opened {rule : Rule} (hr : Reachable plan rule o) (hp : plan.pooling = false) :
    (openedIn o.events).length = if o.manager.facade.isSome then 1 else 0 :=
  hr.keeps rfl fun ho _ st => st.opened ho hp

theorem Orderly.obtained (ho : o.Orderly plan) {x : Caller} (hx : x ∈ o.callers) {g : Handle}
    (hg : g ∈ x.stage.obtained?) : o.manager.Hands g :=
  (ho.fits x hx).hands hg

/-- The life of a manager: it is initialized once at the most, and hands out what it was initialized
with for as long as it is open. A closing that comes second returns at once, so it says nothing
about the pool while the first one is still at it. -/
theorem lifecycle (hr : Reachable plan Unruled o) : o.Lifecycle plan := by
  have ho := hr.orderly
  refine ⟨ho.made, hr.initializations, fun f hf => ?_, fun f hf o' hl => hl.facade hf,
    fun x hx g hg => ho.hands (ho.obtained hx hg),
    fun hp => (hr.opened hp).trans hr.initializations.symm, ?_, ?_⟩
  · obtain ⟨-, hb⟩ := ho.facade f hf
    obtain ⟨t, backend⟩ := f
    cases backend with
    | direct c =>
      rw [show plan.pooling = false from hb]
      exact ⟨rfl, rfl⟩
    | pooled p =>
      rw [show plan.pooling = true from hb.1]
      exact ⟨rfl, rfl⟩
  · intro hp o' hl x hx g hg x' hx' g' hg'
    have ho' := hl.orderly ho
    refine ho'.hands_unique hp ?_ (ho'.obtained hx' hg')
    obtain ⟨f, hf, hh⟩ := ho.obtained hx hg
    exact ⟨f, hl.facade hf, hh⟩
  · intro hc o' hl v x hn hx he
    have hs := hr.closing.shut hc.returned hc.alone
    -- no one is late yet; whoever comes from here on is
    have late : o.Late plan o.callers.length := by
      refine ⟨ho, hs, fun w y hw hy => ?_⟩
      exact absurd (List.getElem?_eq_some_iff.mp hy).1 (Nat.not_lt_of_le hw)
    have late' := hl.late late
    refine ⟨fun reply hreply => ?_, late'.can_end hn hx he, fun h o'' ha st =>
      late'.quiet hn hx he st ha⟩
    have hf := late'.fault hn hx he hreply
    rwa [lateFamily_congr (hl.facade_of_closed hs.closed).2] at hf

/-- A manager with a pool is initialized and hands out a handle before it is closed. Whoever asks
for a handle then gets none. -/
theorem lifecycle_of_handle_before_close : ∃ o o', Reachable { pooling := true } Unruled o ∧
    o.initializations = 1 ∧ o.ClosingReturned ∧ Leads Unruled o o' ∧
    (∃ x f, o'.callers[3]? = some x ∧ x.stage = .ended (.handle (.error f))) ∧
    o.Lifecycle { pooling := true } := by
  obtain ⟨o, ho, hp⟩ := reachable_of_play { pooling := true } Unruled
    [.arrive (.init "h:1" (.text "") .absent), .establish 0 {},
      .arrive .handle, .look 1, .enter 1, .inside (.turn 0), .inside (.supplied 0 0),
      .inside (.turn 0), .inside (.turn 0), .inside (.turn 0), .back 1,
      .arrive .close, .look 2, .enter 2, .inside (.turn 1), .back 2]
    (fun o => decide (o.initializations = 1) && decide o.ClosingReturned &&
      (o.play Unruled [.arrive .handle, .look 3, .enter 3, .inside (.turn 2), .back 3]).any
        fun o => o.callers[3]?.any fun x => x.stage.turnedAway?.isSome)
    (by decide +kernel)
  simp only [Bool.and_eq_true, decide_eq_true_eq] at hp
  obtain ⟨⟨hi, hc⟩, hp⟩ := hp
  obtain ⟨o', hl, hx⟩ := (Option.any_eq_true _ _).mp hp
  obtain ⟨x, hx, hs⟩ := (Option.any_eq_true _ _).mp hx
  obtain ⟨f, hf⟩ := Option.isSome_iff_exists.mp hs
  exact ⟨o, o', ho, hi, hc, leads_of_play hl, ⟨x, f, hx, Stage.eq_of_turnedAway? hf⟩, lifecycle ho⟩

end ManagerSystem
end RedisGateway
