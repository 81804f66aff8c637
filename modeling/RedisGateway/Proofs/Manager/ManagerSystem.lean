import RedisGateway.Proofs.Manager.Transition
import RedisGateway.Proofs.Pool.Course

/-!
A manager in use: the method calls of any number of callers side by side. Every look at the manager,
every turn under the lock of its pool and every answer of a client or of the supplier is one step,
and steps follow one another in any order. Only an initialization is one step as a whole: it holds
its lock throughout, and until it succeeds no one else has anything to do with what it opens.
-/

namespace RedisGateway

open Event (openedIn closedIn)

namespace Pool

/-- How a call starts at a pool: what a borrow delivered is given back as such. -/
def Demand.happening (s : TrackedSystem) (borrow : Option Nat) : Demand → Happening
  | .borrow _ => .borrow none
  | .giveBack c => match borrow with
    | some i => if (i, c) ∈ s.lent then .giveBack (i, c) else .offer c
    | none => .offer c
  | .close => .close

/-- Whoever gives it back, a call starts as its kind of call does. -/
theorem Demand.starts {policy : Policy} {s t : TrackedSystem} {d : Demand} {borrow : Option Nat}
    (st : TrackedSystem.Step policy s (d.happening s borrow) t) :
    ∃ p, t.system = s.system.start p d.phase := by
  cases d with
  | borrow p =>
    cases st with
    | borrow => exact ⟨_, rfl⟩
  | giveBack c =>
    simp only [happening] at st
    split at st
    · split at st
      · cases st with
        | giveBack => exact ⟨_, rfl⟩
      · cases st with
        | offer => exact ⟨_, rfl⟩
    · cases st with
      | offer => exact ⟨_, rfl⟩
  | close =>
    cases st with
    | close => exact ⟨_, rfl⟩

/-- What a pool has asked for and gets an answer to. -/
def TrackedSystem.asked? (policy : Policy) (s : TrackedSystem) (i : Nat) : Option Request :=
  match s.move? policy i with
  | some (.ask r _) => some r
  | _ => none

end Pool

/-- Someone's method call, as far as it has come. -/
structure Caller where
  method : MethodCall
  stage : Stage := .starting method
  /-- The call of the pool that is in progress for it. -/
  thread : Option Nat := none
  /-- The borrow whose client this caller has to give back. It passes on to whoever comes to release
  the handle. -/
  loan : Option Nat := none

namespace Caller

/-- The caller with a call of the pool in progress. A borrow is for the caller itself. -/
def calls (x : Caller) (i : Nat) (d : Pool.Demand) : Caller :=
  { x with
    thread := some i
    loan := match d with
      | .borrow _ => some i
      | .giveBack _ | .close => none }

/-- The caller with its call of the pool behind it. -/
def resumes (x : Caller) (next : Stage) (r : Pool.Result) : Caller :=
  { x with
    stage := next, thread := none
    loan := match r with
      | .ok (some _) => x.loan
      | _ => none }

end Caller

/-- A manager with its callers. -/
structure ManagerSystem where
  /-- The manager, with its pool as it was opened; the tracked pool says what it has come to. -/
  manager : Manager
  tracked : Pool.TrackedSystem := { system := {}, opened := [] }
  callers : List Caller := []
  /-- The number of clients that were opened. -/
  count : Nat := 0
  /-- What was asked of the remote side, latest first. -/
  events : List Event := []

namespace ManagerSystem

/-- What can happen at a manager. -/
inductive Happening where
  /-- Someone comes with a method call. -/
  | arrive (e : MethodCall)
  /-- Someone comes to release the handle that a caller got. -/
  | handOver (n : Nat)
  /-- A caller has its look at the manager. -/
  | look (v : Nat)
  /-- A caller initializes the manager in a world. -/
  | establish (v : Nat) (w : World)
  /-- A caller calls the pool. -/
  | enter (v : Nat)
  /-- A call of the pool goes on. -/
  | inside (h : Pool.Happening)
  /-- A caller goes on after its call of the pool. -/
  | back (v : Nat)
  | sent (v : Nat) (outcome : Outcome)
  | hungUp (v : Nat) (answer : Outcome)

/-- A manager that was just made. -/
def fresh (plan : ManagerPlan) : ManagerSystem := { manager := { plan } }

def welcome (o : ManagerSystem) (x : Caller) : ManagerSystem :=
  { o with callers := o.callers ++ [x] }

def put (o : ManagerSystem) (v : Nat) (x : Caller) : ManagerSystem :=
  { o with callers := o.callers.set v x }

def tell (o : ManagerSystem) (news : List Event) : ManagerSystem :=
  { o with events := news ++ o.events }

/-- What becomes of the pool at an initialization. -/
def trackedAfter (o : ManagerSystem) (m : Manager) : Pool.TrackedSystem :=
  match o.manager.facade, m.pool? with
  | none, some p => { system := { core := p.core }, opened := p.core.idle }
  | _, _ => o.tracked

/-- An initialization has come to its end. -/
def established (o : ManagerSystem) (v : Nat) (x : Caller) (r : Except Fault Unit)
    (s : Site) : ManagerSystem where
  manager := s.manager
  tracked := o.trackedAfter s.manager
  callers := o.callers.set v { x with stage := .ended (.done r) }
  count := s.world.remote.opened
  events := s.world.remote.events

/-- The events of what happens at a pool. -/
def newsOf (p : ConnectionPool) (s : Pool.TrackedSystem) : Pool.Happening → List Event
  | .supplied _ c => [.opened c p.request]
  | .pinged i _ => match s.asked? p.policy i with
    | some (.ping c) => [.called c { command := "ping" }]
    | _ => []
  | .closed i _ => match s.asked? p.policy i with
    | some (.close c) => [.closed c]
    | _ => []
  | _ => []

/-- A call of the pool has gone on. -/
def progressed (o : ManagerSystem) (p : ConnectionPool) (h : Pool.Happening)
    (tracked : Pool.TrackedSystem) : ManagerSystem :=
  let news := newsOf p o.tracked h
  { o.tell news with tracked, count := o.count + (openedIn news).length }

/-- The steps that can be taken at a manager. -/
inductive Step : ManagerSystem → Happening → ManagerSystem → Prop where
  | arrive {o e} : Step o (.arrive e) (o.welcome { method := e })
  | handOver {o n x h} (hn : o.callers[n]? = some x) (hh : x.stage = .ended (.handle (.ok h))) :
      Step o (.handOver n)
        ((o.put n { x with loan := none }).welcome { method := .release (some h), loan := x.loan })
  | look {o v x f} (hv : o.callers[v]? = some x) (hm : x.stage.move = .look f) :
      Step o (.look v)
        { o.put v { x with stage := (f o.manager).2.1 } with manager := (f o.manager).1 }
  | establish {o v x w hosts password options r s} (hv : o.callers[v]? = some x)
      (hm : x.stage.move = .establish hosts password options)
      (hc : w.remote.opened = o.count) (he : w.remote.events = o.events)
      (hi : (Manager.init hosts password options).run ⟨o.manager, w⟩ = (r, s)) :
      Step o (.establish v w) (o.established v x r s)
  | enter {o v x d resume p tracked} (hv : o.callers[v]? = some x)
      (hm : x.stage.move = .call d resume) (ht : x.thread = none)
      (hp : o.manager.pool? = some p)
      (st : Pool.TrackedSystem.Step p.policy o.tracked (d.happening o.tracked x.loan) tracked) :
      Step o (.enter v) { o.put v (x.calls o.tracked.system.threads.length d) with tracked }
  | inside {o p h tracked} (hp : o.manager.pool? = some p) (hh : h.thread?.isSome = true)
      (hc : ∀ i c, h = .supplied i c → c = o.count)
      (st : Pool.TrackedSystem.Step p.policy o.tracked h tracked) :
      Step o (.inside h) (o.progressed p h tracked)
  | back {o v x d resume i r} (hv : o.callers[v]? = some x) (hm : x.stage.move = .call d resume)
      (ht : x.thread = some i) (hf : o.tracked.system.phase? i = some (.finished r)) :
      Step o (.back v) (o.put v (x.resumes (resume r).1 r))
  | sent {o v x h order resume outcome} (hv : o.callers[v]? = some x)
      (hm : x.stage.move = .send h order resume) :
      Step o (.sent v outcome)
        ((o.put v { x with stage := (resume outcome).1 }).tell [.called h.client order.call])
  | hungUp {o v x c resume answer} (hv : o.callers[v]? = some x)
      (hm : x.stage.move = .hangUp c resume) :
      Step o (.hungUp v answer)
        ((o.put v { x with stage := (resume answer).1 }).tell [.closed c])

/-- What callers keep to. -/
abbrev Rule := ManagerSystem → Happening → Prop

/-- Anything goes. -/
def Unruled : Rule
  | _, _ => True

/-- Any number of steps that keep to a rule. -/
inductive Leads (rule : Rule) : ManagerSystem → ManagerSystem → Prop where
  | refl {o} : Leads rule o o
  | step {o o₁ o₂ h} : Leads rule o o₁ → rule o₁ h → Step o₁ h o₂ → Leads rule o o₂

/-- What can become of a manager from its making on. -/
def Reachable (plan : ManagerPlan) (rule : Rule) (o : ManagerSystem) : Prop :=
  Leads rule (fresh plan) o

variable {o o' : ManagerSystem} {h : Happening}

/-- What comes first in a run. -/
theorem Leads.head {rule : Rule} {o₁ o₂ : ManagerSystem} (hr : rule o h) (st : Step o h o₁)
    (hl : Leads rule o₁ o₂) : Leads rule o o₂ := by
  induction hl with
  | refl => exact .step .refl hr st
  | step _ hr st ih => exact .step ih hr st

/-- What every step keeps holds to the end of a run. -/
@[elab_as_elim]
theorem Leads.keeps {rule : Rule} {kept : ManagerSystem → Prop} (hl : Leads rule o o') (ho : kept o)
    (hs : ∀ {o h o'}, rule o h → Step o h o' → kept o → kept o') : kept o' := by
  induction hl with
  | refl => exact ho
  | step _ hr st ih => exact hs hr st ih

/-! ## What a step does -/

theorem put_caller {v : Nat} {x : Caller} (hv : o.callers[v]? = some x) (y : Caller) (w : Nat) :
    (o.callers.set v y)[w]? = if v = w then some y else o.callers[w]? := by
  rw [List.getElem?_set, if_pos (List.getElem?_eq_some_iff.mp hv).1]

/-- What a step makes of a caller. -/
inductive Advance (before after : ManagerSystem) (x : Caller) : Caller → Prop where
  | same : Advance before after x x
  | handedOver {g} (hh : x.stage = .ended (.handle (.ok g))) :
      Advance before after x { x with loan := none }
  | passed {next} (hg : Stage.Transition before.manager x.stage after.manager next)
      (hc : ∀ d resume, x.stage.move ≠ .call d resume) :
      Advance before after x { x with stage := next }
  | entered {d resume p} (hm : x.stage.move = .call d resume) (ht : x.thread = none)
      (hp : before.manager.pool? = some p)
      (st : Pool.TrackedSystem.Step p.policy before.tracked (d.happening before.tracked x.loan)
        after.tracked) :
      Advance before after x (x.calls before.tracked.system.threads.length d)
  | cameBack {d resume i r} (hm : x.stage.move = .call d resume) (ht : x.thread = some i)
      (hf : before.tracked.system.phase? i = some (.finished r))
      (hg : Stage.Transition before.manager x.stage after.manager (resume r).1) :
      Advance before after x (x.resumes (resume r).1 r)

/-- How a caller begins. -/
inductive Newcomer (system : ManagerSystem) : Happening → Caller → Prop where
  | stranger {e} : Newcomer system (.arrive e) { method := e }
  | heir {n x g} (hn : system.callers[n]? = some x) (hh : x.stage = .ended (.handle (.ok g))) :
      Newcomer system (.handOver n) { method := .release (some g), loan := x.loan }

theorem Step.caller (st : Step o h o') {v : Nat} {x : Caller} (hv : o.callers[v]? = some x) :
    ∃ x', o'.callers[v]? = some x' ∧ Advance o o' x x' := by
  -- the caller is the one that the step is about, or stays as it is
  have put : ∀ {w : Nat} {y : Caller} (z : Caller), o.callers[w]? = some y → Advance o o' y z →
      ∃ x', (o.callers.set w z)[v]? = some x' ∧ Advance o o' x x' := by
    intro w y z hw ha
    rw [put_caller hw]
    by_cases hwv : w = v
    · subst hwv
      cases hv.symm.trans hw
      exact ⟨z, if_pos rfl, ha⟩
    · exact ⟨x, by rw [if_neg hwv, hv], .same⟩
  have more : ∀ {l : List Caller} {z y : Caller}, l[v]? = some z → (l ++ [y])[v]? = some z := by
    intro l z y hz
    rw [List.getElem?_append_left (List.getElem?_eq_some_iff.mp hz).1, hz]
  cases st with
  | arrive => exact ⟨x, more hv, .same⟩
  | handOver hn hh =>
    obtain ⟨x', hx, ha⟩ := put _ hn (.handedOver hh)
    exact ⟨x', more hx, ha⟩
  | look hw hm =>
    exact put _ hw (.passed (Stage.transition_of_look hm _) (Stage.ne_call hm nofun))
  | establish hw hm hc he hi =>
    exact put _ hw (.passed (Stage.transition_of_establish hm hi) (Stage.ne_call hm nofun))
  | enter hw hm ht hp st => exact put _ hw (.entered hm ht hp st)
  | inside => exact ⟨x, hv, .same⟩
  | back hw hm ht hf => exact put _ hw (.cameBack hm ht hf (Stage.transition_of_call hm _ _))
  | sent hw hm =>
    exact put _ hw (.passed (Stage.transition_of_send hm _ _) (Stage.ne_call hm nofun))
  | hungUp hw hm =>
    exact put _ hw (.passed (Stage.transition_of_hangUp hm _ _) (Stage.ne_call hm nofun))

theorem Step.caller_of (st : Step o h o') {v : Nat} {x' : Caller} (hv : o'.callers[v]? = some x') :
    (∃ x, o.callers[v]? = some x ∧ Advance o o' x x') ∨
      v = o.callers.length ∧ Newcomer o h x' := by
  by_cases hl : v < o.callers.length
  · obtain ⟨x'', hx, ha⟩ := st.caller (List.getElem?_eq_getElem hl)
    cases hv.symm.trans hx
    exact .inl ⟨_, List.getElem?_eq_getElem hl, ha⟩
  · have old : ∀ {w : Nat} {y : Caller}, (o.callers.set w y)[v]? ≠ some x' := by
      intro w y h
      have := (List.getElem?_eq_some_iff.mp h).1
      rw [List.length_set] at this
      exact hl this
    -- who comes is last
    have last : ∀ {l : List Caller} {y : Caller}, l.length = o.callers.length →
        (l ++ [y])[v]? = some x' → v = o.callers.length ∧ x' = y := by
      intro l y hn h
      rw [List.getElem?_append_right (by omega), List.getElem?_singleton] at h
      split at h
      · cases h
        exact ⟨by omega, rfl⟩
      · cases h
    cases st with
    | arrive =>
      obtain ⟨h, rfl⟩ := last rfl hv
      exact .inr ⟨h, .stranger⟩
    | handOver hn hh =>
      obtain ⟨h, rfl⟩ := last List.length_set hv
      exact .inr ⟨h, .heir hn hh⟩
    | inside => exact absurd (List.getElem?_eq_some_iff.mp hv).1 hl
    | _ => exact absurd hv old

/-- What a step does to the manager. -/
theorem Step.manager (st : Step o h o') : o'.manager = o.manager ∨
    ∃ x ∈ o.callers, ∃ next, Stage.Transition o.manager x.stage o'.manager next ∧
      { x with stage := next } ∈ o'.callers := by
  have mem : ∀ {v : Nat} {x : Caller} (y : Caller),
      o.callers[v]? = some x → y ∈ o.callers.set v y :=
    fun y hv => List.mem_of_getElem? ((put_caller hv y _).trans (if_pos rfl))
  cases st with
  | look hv hm =>
    exact .inr ⟨_, List.mem_of_getElem? hv, _, Stage.transition_of_look hm o.manager, mem _ hv⟩
  | establish hv hm hc he hi =>
    exact .inr ⟨_, List.mem_of_getElem? hv, _, Stage.transition_of_establish hm hi, mem _ hv⟩
  | _ => exact .inl rfl

/-- What a step does to the pool of a manager that was initialized before. -/
theorem Step.tracked (st : Step o h o') {f : Facade} (hf : o.manager.facade = some f) :
    o'.tracked = o.tracked ∨ ∃ p e, o.manager.pool? = some p ∧
      Pool.TrackedSystem.Step p.policy o.tracked e o'.tracked := by
  cases st with
  | establish =>
    refine .inl ?_
    simp only [established, trackedAfter, hf]
  | enter hv hm ht hp st => exact .inr ⟨_, _, hp, st⟩
  | inside hp hh hc st => exact .inr ⟨_, _, hp, st⟩
  | _ => exact .inl rfl

theorem Step.mem_callers (st : Step o h o') {x' : Caller} (hx : x' ∈ o'.callers) :
    (∃ x ∈ o.callers, Advance o o' x x') ∨ Newcomer o h x' := by
  obtain ⟨v, hv⟩ := List.mem_iff_getElem?.mp hx
  rcases st.caller_of hv with ⟨x, hx, ha⟩ | ⟨-, hn⟩
  · exact .inl ⟨x, List.mem_of_getElem? hx, ha⟩
  · exact .inr hn

/-- What holds of method calls and stages from their beginning on and along every transition. -/
theorem Step.stages (st : Step o h o') {kept kept' : MethodCall → Stage → Prop}
    (hk : ∀ x ∈ o.callers, kept x.method x.stage)
    (same : ∀ {e stage}, kept e stage → kept' e stage) (new : ∀ e, kept' e (.starting e))
    (goes : ∀ {e stage next}, Stage.Transition o.manager stage o'.manager next → kept e stage →
      kept' e next) : ∀ x ∈ o'.callers, kept' x.method x.stage := by
  intro x' hx'
  rcases st.mem_callers hx' with ⟨x, hx, ha⟩ | hn
  · have hk := hk x hx
    cases ha with
    | same | handedOver | entered => exact same hk
    | passed hg => exact goes hg hk
    | cameBack hm ht hf hg => exact goes hg hk
  · cases hn with
    | stranger => exact new _
    | heir => exact new _

/-- What holds of every manager in use: the facade and all handles are made according to the
plan. -/
structure Orderly (plan : ManagerPlan) (o : ManagerSystem) : Prop where
  made : o.manager.plan = plan
  facade : ∀ f, o.manager.facade = some f → f.Fits plan
  belongs : ∀ x ∈ o.callers, x.stage.Belongs x.method
  fits : ∀ x ∈ o.callers, x.stage.Fits o.manager
  calling : ∀ x ∈ o.callers, x.thread ≠ none → ∃ d resume, x.stage.move = .call d resume

theorem Orderly.pool {plan : ManagerPlan} (ho : o.Orderly plan) {p : ConnectionPool}
    (hp : o.manager.pool? = some p) :
    plan.pooling = true ∧ p.policy = ⟨Manager.poolName plan, plan.limits⟩ := by
  obtain ⟨f, hf, hp⟩ := Option.bind_eq_some_iff.mp hp
  have hfit := (ho.facade f hf).2
  obtain ⟨t, backend⟩ := f
  cases backend with
  | direct c => cases hp
  | pooled q =>
    cases hp
    exact hfit

theorem Step.facade (st : Step o h o') {f : Facade} (hf : o.manager.facade = some f) :
    o'.manager.facade = some f := by
  rcases st.manager with hm | ⟨x, hx, next, hg, -⟩
  · rw [hm, hf]
  · exact hg.facade hf

theorem Step.closed (st : Step o h o') (hc : o.manager.closed = true) :
    o'.manager.closed = true := by
  rcases st.manager with hm | ⟨x, hx, next, hg, -⟩
  · rw [hm, hc]
  · exact hg.closed hc

theorem Step.orderly {plan : ManagerPlan} (st : Step o h o') (ho : o.Orderly plan) :
    o'.Orderly plan := by
  have hm : o'.manager.plan = plan ∧ ∀ f, o'.manager.facade = some f → f.Fits plan := by
    rcases st.manager with hm | ⟨x, hx, next, hg, -⟩
    · rw [hm]
      exact ⟨ho.made, ho.facade⟩
    · refine ⟨hg.plan.trans ho.made, fun f hf => ?_⟩
      have := hg.fits_facade (by rw [ho.made]; exact ho.facade) hf
      rwa [hg.plan, ho.made] at this
  refine ⟨hm.1, hm.2, ?_, ?_, ?_⟩
  · exact st.stages ho.belongs id (fun _ => .starting) fun hg hb => hg.belongs hb
  · have same : ∀ {stage : Stage}, stage.Fits o.manager → stage.Fits o'.manager :=
      Stage.fits_mono fun f hf => st.facade hf
    exact @Step.stages _ _ _ st (fun _ stage => stage.Fits o.manager) _ ho.fits same
      (fun _ => trivial) fun hg hs => hg.fits hs
  · intro x' hx' hn
    rcases st.mem_callers hx' with ⟨x, hx, ha⟩ | hw
    · have hc := ho.calling x hx
      cases ha with
      | same | handedOver => exact hc hn
      | passed hg hnc =>
        obtain ⟨d, resume, hm⟩ := hc hn
        exact absurd hm (hnc d resume)
      | entered hm => exact ⟨_, _, hm⟩
      | cameBack => exact absurd rfl hn
    · cases hw <;> exact absurd rfl hn

theorem fresh_orderly (plan : ManagerPlan) : (fresh plan).Orderly plan := by
  refine ⟨rfl, fun f hf => ?_, fun x hx => ?_, fun x hx => ?_, fun x hx => ?_⟩
  · cases hf
  · cases hx
  · cases hx
  · cases hx

section
variable {plan : ManagerPlan} {rule : Rule}

theorem Leads.orderly (hl : Leads rule o o') (ho : o.Orderly plan) : o'.Orderly plan :=
  hl.keeps ho fun _ st => st.orderly

theorem Leads.facade (hl : Leads rule o o') {f : Facade} (hf : o.manager.facade = some f) :
    o'.manager.facade = some f :=
  hl.keeps hf fun _ st => st.facade

theorem Reachable.orderly (hr : Reachable plan rule o) : o.Orderly plan :=
  Leads.orderly hr (fresh_orderly plan)

/-- What holds of a manager that was just made and is kept by every step holds of every manager in
use. -/
@[elab_as_elim]
theorem Reachable.keeps {kept : ManagerSystem → Prop} (hr : Reachable plan rule o)
    (hf : kept (fresh plan))
    (hs : ∀ {o h o'}, o.Orderly plan → rule o h → Step o h o' → kept o → kept o') : kept o := by
  have both : o.Orderly plan ∧ kept o :=
    Leads.keeps hr ⟨fresh_orderly plan, hf⟩ fun hr st hk => ⟨st.orderly hk.1, hs hk.1 hr st hk.2⟩
  exact both.2

end

/-! ## Counting callers -/

theorem countP_set_add {p : Caller → Bool} {callers : List Caller} {v : Nat} {x : Caller}
    (hv : callers[v]? = some x) (y : Caller) :
    (callers.set v y).countP p + [x].countP p = callers.countP p + [y].countP p := by
  induction callers generalizing v with
  | nil => cases hv
  | cons z callers ih =>
    cases v with
    | zero =>
      cases hv
      simp only [List.set_cons_zero, List.countP_cons, List.countP_nil]
      omega
    | succ v =>
      have := ih hv
      simp only [List.set_cons_succ, List.countP_cons] at this ⊢
      omega

/-- How often callers are counted by method call and stage changes only with a transition, and by
what the stages before and after it count. -/
theorem Step.counts (st : Step o h o') (p : MethodCall → Stage → Bool)
    (new : ∀ e, p e (.starting e) = false) :
    (o'.manager = o.manager ∧ o'.callers.countP (fun x => p x.method x.stage) =
      o.callers.countP fun x => p x.method x.stage) ∨
    ∃ x ∈ o.callers, ∃ next, Stage.Transition o.manager x.stage o'.manager next ∧
      o'.callers.countP (fun x => p x.method x.stage) + (if p x.method x.stage then 1 else 0) =
        o.callers.countP (fun x => p x.method x.stage) + if p x.method next then 1 else 0 := by
  have one : ∀ y : Caller, [y].countP (fun x => p x.method x.stage) =
      if p y.method y.stage then 1 else 0 := by
    intro y
    rw [List.countP_cons, List.countP_nil, Nat.zero_add]
  -- a caller that keeps its method call and its stage is counted as before
  have same : ∀ {v : Nat} {x y : Caller}, o.callers[v]? = some x → y.method = x.method →
      y.stage = x.stage → (o.callers.set v y).countP (fun x => p x.method x.stage) =
        o.callers.countP fun x => p x.method x.stage := by
    intro v x y hv he hs
    have := @countP_set_add (fun x => p x.method x.stage) _ _ _ hv y
    rw [one, one, he, hs] at this
    omega
  -- otherwise it is counted by the stage that it comes to
  have passed : ∀ {v : Nat} {x : Caller} (y : Caller), o.callers[v]? = some x →
      y.method = x.method → Stage.Transition o.manager x.stage o'.manager y.stage →
      ∃ x ∈ o.callers, ∃ next, Stage.Transition o.manager x.stage o'.manager next ∧
        (o.callers.set v y).countP (fun x => p x.method x.stage) +
            (if p x.method x.stage then 1 else 0) =
          o.callers.countP (fun x => p x.method x.stage) + if p x.method next then 1 else 0 := by
    intro v x y hv he hg
    refine ⟨x, List.mem_of_getElem? hv, y.stage, hg, ?_⟩
    have := @countP_set_add (fun x => p x.method x.stage) _ _ _ hv y
    rwa [one, one, he] at this
  cases st with
  | arrive =>
    refine .inl ⟨rfl, ?_⟩
    show (_ ++ [_]).countP _ = _
    rw [List.countP_append, one, new]
    rfl
  | @handOver n x _ hn hh =>
    refine .inl ⟨rfl, ?_⟩
    show (List.set _ _ _ ++ [_]).countP _ = _
    have hs := @same n x { x with loan := none } hn rfl rfl
    rw [List.countP_append, one, new, hs]
    rfl
  | look hv hm => exact .inr (passed _ hv rfl (Stage.transition_of_look hm _))
  | establish hv hm hc he hi => exact .inr (passed _ hv rfl (Stage.transition_of_establish hm hi))
  | enter hv => exact .inl ⟨rfl, same hv rfl rfl⟩
  | inside => exact .inl ⟨rfl, rfl⟩
  | back hv hm => exact .inr (passed _ hv rfl (Stage.transition_of_call hm _ _))
  | sent hv hm => exact .inr (passed _ hv rfl (Stage.transition_of_send hm _ _))
  | hungUp hv hm => exact .inr (passed _ hv rfl (Stage.transition_of_hangUp hm _ _))

end ManagerSystem
end RedisGateway
