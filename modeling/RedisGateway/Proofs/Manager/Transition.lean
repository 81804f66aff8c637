import RedisGateway.Proofs.Manager.MethodCall

/-!
What a method call can come to in one step. `Stage.Transition` lists the stages before and after,
with what becomes of the manager; every invariant of a manager in use is checked against this list.
-/

namespace RedisGateway

open Event (openedIn closedIn)

/-! ## Initializations -/

/-- A facade that was made according to a plan. -/
def Facade.Fits (plan : ManagerPlan) (f : Facade) : Prop :=
  f.topology = plan.topology ∧ match f.backend with
    | .direct _ => plan.pooling = false
    | .pooled p => plan.pooling = true ∧ p.policy = ⟨Manager.poolName plan, plan.limits⟩

namespace Manager

/-- What an initialization comes to, with the events that it causes. -/
inductive Attempt (m : Manager) (w : World) : Except Fault Unit → Site → Prop where
  | failed {f s news} (hm : s.manager = m) (hb : w.remote.Becomes news s.world.remote)
      (hc : m.plan.RollsBack → ∀ c, (closedIn news).count c = (openedIn news).count c)
      (hd : m.plan.pooling = false → news = []) : Attempt m w (.error f) s
  | succeeded {facade n s news} (ho : m.closed = false) (hf : m.facade = none)
      (hm : s.manager = { m with facade := some facade })
      (hb : w.remote.Becomes news s.world.remote)
      (he : Established m.plan (.ok (facade, n)) news) : Attempt m w (.ok ()) s

variable {m : Manager} {w : World} {hosts : String} {password : Value} {options : Options}
  {r : Except Fault Unit} {s : Site}

theorem init_attempt (h : (init hosts password options).run ⟨m, w⟩ = (r, s)) : Attempt m w r s := by
  rcases init_run hosts password options ⟨m, w⟩ with ⟨f, hr⟩ | ⟨hc, hf, hr⟩
  · cases h.symm.trans hr
    exact .failed rfl (.refl _) (fun _ _ => rfl) fun _ => rfl
  · obtain ⟨news, hb, he⟩ := @establish_tells m.plan hosts password options w
    rw [hr] at h
    generalize (establish m.plan hosts password options).run w = out at h hb he
    obtain ⟨got, w'⟩ := out
    cases got with
    | error f =>
      cases h
      cases he with
      | failed hc hd => exact .failed rfl hb hc hd
    | ok made =>
      cases h
      exact .succeeded hc hf rfl hb he

/-- A manager that is closed turns every initialization down. -/
theorem init_closed (hc : m.closed = true)
    (h : (init hosts password options).run ⟨m, w⟩ = (r, s)) :
    r = .error .managerClosed ∧ s = ⟨m, w⟩ := by
  obtain ⟨plan, facade, closed, registry⟩ := m
  cases hc
  cases h
  exact ⟨rfl, rfl⟩

theorem Established.fits {plan : ManagerPlan} {facade : Facade} {n : Nat} {news : List Event}
    (he : Established plan (.ok (facade, n)) news) : facade.Fits plan := by
  cases he with
  | direct hp => exact ⟨rfl, hp⟩
  | pooled hp hl => exact ⟨rfl, hp, hl⟩

end Manager

/-! ## Transitions -/

namespace Stage

/-- The stages that a method call goes through. -/
inductive Belongs : MethodCall → Stage → Prop where
  | starting {e} : Belongs e (starting e)
  | initialized {hosts password options r} :
      Belongs (.init hosts password options) (ended (.done r))
  | borrowing {t p} : Belongs .handle (borrowing t p none)
  | handed {r} : Belongs .handle (ended (.handle r))
  | acquiring {o} : Belongs (.command o) (acquiring o)
  | borrowingFor {o t p} : Belongs (.command o) (borrowing t p (some o))
  | sending {o h} : Belongs (.command o) (sending h o)
  | leaving {o h r} : Belongs (.command o) (leaving h r)
  | returningFor {o h r} : Belongs (.command o) (returning h (.value r))
  | answered {o r} : Belongs (.command o) (ended (.value r))
  | returning {h h' r} : Belongs (.release h) (returning h' (.done r))
  | released {h r} : Belongs (.release h) (ended (.done r))
  | shuttingPool : Belongs .closePool (shutting false)
  | closedPool {r} : Belongs .closePool (ended (.done r))
  | shutting : Belongs .close (shutting true)
  | hangingUp {c} : Belongs .close (hangingUp c)
  | closed {r} : Belongs .close (ended (.done r))

/-- A stage that asks for a handle, for a call or for good. -/
inductive Asks : Stage → Option Order → Prop where
  | handle : Asks (starting .handle) none
  | command {o} : Asks (acquiring o) (some o)

end Stage

/-- The reasons for which a manager itself gives no handle. -/
inductive Manager.Refuses (m : Manager) : Fault → Prop where
  | uninitialized (hf : m.facade = none) : Refuses m .notInitialized
  | closed {t c} (hf : m.facade = some ⟨t, .direct c⟩) (hc : m.closed = true) :
      Refuses m .managerClosed
  | unwaitable {t p e} (hf : m.facade = some ⟨t, .pooled p⟩)
      (hp : p.policy.limits.patience none = .error e) : Refuses m e

/-- A handle as the facade of a manager hands it out. -/
def Manager.Hands (m : Manager) (h : Handle) : Prop :=
  ∃ f, m.facade = some f ∧ h.topology = f.topology ∧ match f.backend with
    | .direct client => h.client = client ∧ h.pooled = false
    | .pooled _ => h.pooled = true

/-- A manager whose handles go back to a pool. -/
def Manager.TakesBack (m : Manager) : Prop := m.plan.pooling = true ∧ m.pool?.isSome = true

namespace Stage

open Manager (Refuses Attempt handleOf resultOf)

/-- What becomes of the manager and of a stage in one step: the stage before it, the manager and the
stage after it. -/
inductive Transition (m : Manager) : Stage → Manager → Stage → Prop where
  | init {hosts password options w r s} (ha : Attempt m w r s)
      (hc : m.closed = true → r = .error .managerClosed) :
      Transition m (starting (.init hosts password options)) s.manager (ended (.done r))
  | refused {stage o f} (hs : Asks stage o) (hr : Refuses m f) :
      Transition m stage m (got o (.error f))
  /-- The handle of the client that is open for good is handed out. -/
  | direct {stage o t c} (hs : Asks stage o) (hf : m.facade = some ⟨t, .direct c⟩)
      (ho : m.closed = false) : Transition m stage m (got o (.ok ⟨t, c, false⟩))
  | borrow {stage o t p patience} (hs : Asks stage o) (hf : m.facade = some ⟨t, .pooled p⟩)
      (hp : p.policy.limits.patience none = .ok patience) :
      Transition m stage m (borrowing t patience o)
  | misfit {o f} (hf : ¬o.Fits) : Transition m (starting (.command o))
      { m with registry := (m.registry.obtain o.category).2 } (ended (.value (.error f)))
  | fit {o} (hf : o.Fits) : Transition m (starting (.command o))
      { m with registry := (m.registry.obtain o.category).2 } (acquiring o)
  /-- A release comes to nothing. -/
  | released {h} (hn : h = none ∨ ¬m.TakesBack) :
      Transition m (starting (.release h)) m (ended (.done (.ok ())))
  | release {h} (hp : m.TakesBack) :
      Transition m (starting (.release (some h))) m (returning h (.done (.ok ())))
  | left {h r} (hn : ¬m.TakesBack) : Transition m (leaving h r) m (ended (.value r))
  | leave {h r} (hp : m.TakesBack) : Transition m (leaving h r) m (returning h (.value r))
  | noPool (hp : m.pool? = none) : Transition m (starting .closePool) m (ended (.done (.ok ())))
  | closePool {p} (hp : m.pool? = some p) : Transition m (starting .closePool) m (shutting false)
  | closedBefore (hc : m.closed = true) :
      Transition m (starting .close) m (ended (.done (.ok ())))
  | closeUnused (hc : m.closed = false) (hf : m.facade = none) :
      Transition m (starting .close) { m with closed := true } (ended (.done (.ok ())))
  | closePooled {t p} (hc : m.closed = false) (hf : m.facade = some ⟨t, .pooled p⟩) :
      Transition m (starting .close) { m with closed := true } (shutting true)
  | closeDirect {t c} (hc : m.closed = false) (hf : m.facade = some ⟨t, .direct c⟩) :
      Transition m (starting .close) { m with closed := true } (hangingUp c)
  | borrowed {t p o r} : Transition m (borrowing t p o) m (got o (handleOf t r))
  | sent {h o outcome} :
      Transition m (sending h o) m (leaving h (resultOf o.call.command outcome))
  | returned {h reply} {r : Pool.Result} :
      Transition m (returning h reply) m (ended (reply.unless r))
  | shut {whole} {r : Pool.Result} :
      Transition m (shutting whole) m (ended ((Reply.done (.ok ())).unless r))
  | hungUp {c} : Transition m (hangingUp c) m (ended (.done (.ok ())))

variable {m : Manager} {stage : Stage}

/-- A stage whose move is another one does not call the pool. -/
theorem ne_call {move : Move} (hm : stage.move = move) (hc : ∀ d resume, move ≠ .call d resume) :
    ∀ d resume, stage.move ≠ .call d resume := by
  rw [hm]
  exact hc

theorem offer_transition {o : Option Order} (hs : Asks stage o) :
    Transition m stage m (m.offer o) := by
  unfold Manager.offer
  split
  · rename_i hf
    exact .refused hs (.uninitialized hf)
  · rename_i f hf
    obtain ⟨t, backend⟩ := f
    dsimp only
    split
    · split
      · rename_i hc
        exact .refused hs (.closed hf hc)
      · rename_i hc
        exact .direct hs hf (by simpa using hc)
    · split
      · rename_i hp
        exact .borrow hs hf hp
      · rename_i hp
        exact .refused hs (.unwaitable hf hp)

theorem takeBack_cases (m : Manager) (h : Handle) (reply : Reply) :
    (m.TakesBack ∧ m.takeBack h reply = returning h reply) ∨
      (¬m.TakesBack ∧ m.takeBack h reply = ended reply) := by
  unfold Manager.takeBack Manager.TakesBack
  split
  · rename_i hp hq
    exact .inl ⟨⟨hp, by rw [hq]; rfl⟩, rfl⟩
  · rename_i hn
    refine .inr ⟨fun ⟨hp, hq⟩ => ?_, rfl⟩
    obtain ⟨p, hq⟩ := Option.isSome_iff_exists.mp hq
    exact hn p hp hq

theorem close_transition (m : Manager) :
    Transition m (starting .close) m.beginClose.1 m.beginClose.2.1 := by
  obtain ⟨plan, facade, closed, registry⟩ := m
  cases closed with
  | true => exact .closedBefore rfl
  | false =>
    cases facade with
    | none => exact .closeUnused rfl rfl
    | some f =>
      obtain ⟨t, backend⟩ := f
      cases backend with
      | direct c => exact .closeDirect rfl rfl
      | pooled p => exact .closePooled rfl rfl

/-- Every look at the manager is in the list. -/
theorem transition_of_look {f : Manager → Manager × Stage × List Notice}
    (hm : stage.move = .look f) (m : Manager) : Transition m stage (f m).1 (f m).2.1 := by
  cases stage with
  | starting e =>
    cases e with
    | init hosts password options => cases hm
    | handle =>
      cases hm
      exact offer_transition .handle
    | command o =>
      cases hm
      dsimp only
      split
      · rename_i hb
        exact .fit (Command.bind_ok_iff.mp hb).1
      · rename_i hb
        refine .misfit fun ho => ?_
        rw [Command.bind_ok_iff.mpr ⟨ho, rfl⟩] at hb
        cases hb
    | release h =>
      cases hm
      cases h with
      | none => exact .released (.inl rfl)
      | some h =>
        dsimp only
        rcases takeBack_cases m h (.done (.ok ())) with ⟨hp, ht⟩ | ⟨hn, ht⟩
        · rw [ht]
          exact .release hp
        · rw [ht]
          exact .released (.inr hn)
    | closePool =>
      cases hm
      dsimp only
      split
      · rename_i hp
        exact .closePool hp
      · rename_i hp
        exact .noPool hp
    | close =>
      cases hm
      exact close_transition m
  | acquiring o =>
    cases hm
    exact offer_transition .command
  | leaving h r =>
    cases hm
    dsimp only
    rcases takeBack_cases m h (.value r) with ⟨hp, ht⟩ | ⟨hn, ht⟩
    · rw [ht]
      exact .leave hp
    · rw [ht]
      exact .left hn
  | _ => cases hm

/-- No look at the manager changes its facade. -/
theorem facade_of_look {f : Manager → Manager × Stage × List Notice}
    (hm : stage.move = .look f) (m : Manager) : (f m).1.facade = m.facade := by
  have g := transition_of_look hm m
  generalize (f m).1 = m' at g
  generalize (f m).2.1 = next at g
  cases g with
  | init => cases hm
  | _ => rfl

/-- So is every initialization, -/
theorem transition_of_establish {hosts : String} {password : Value} {options : Options} {w : World}
    {r : Except Fault Unit} {s : Site} (hm : stage.move = .establish hosts password options)
    (hi : (Manager.init hosts password options).run ⟨m, w⟩ = (r, s)) :
    Transition m stage s.manager (ended (.done r)) := by
  cases stage with
  | starting e =>
    cases e <;> cases hm
    exact .init (Manager.init_attempt hi) fun hc => (Manager.init_closed hc hi).1
  | _ => cases hm

/-- every end of a call of the pool, -/
theorem transition_of_call {d : Pool.Demand} {resume : Pool.Result → Stage × List Notice}
    (hm : stage.move = .call d resume) (m : Manager) (r : Pool.Result) :
    Transition m stage m (resume r).1 := by
  cases stage with
  | starting e => cases e <;> cases hm
  | borrowing t p o =>
    cases hm
    exact .borrowed
  | returning h reply =>
    cases hm
    exact .returned
  | shutting whole =>
    cases hm
    exact .shut
  | _ => cases hm

/-- and every answer of a client. -/
theorem transition_of_send {h : Handle} {o : Order} {resume : Outcome → Stage × List Notice}
    (hm : stage.move = .send h o resume) (m : Manager) (outcome : Outcome) :
    Transition m stage m (resume outcome).1 := by
  cases stage with
  | starting e => cases e <;> cases hm
  | sending h o =>
    cases hm
    exact .sent
  | _ => cases hm

theorem transition_of_hangUp {c : ClientId} {resume : Outcome → Stage × List Notice}
    (hm : stage.move = .hangUp c resume) (m : Manager) (answer : Outcome) :
    Transition m stage m (resume answer).1 := by
  cases stage with
  | starting e => cases e <;> cases hm
  | hangingUp c =>
    cases hm
    exact .hungUp
  | _ => cases hm

namespace Transition

variable {m m' : Manager} {stage next : Stage}

theorem got_belongs {o : Option Order} (hs : Asks stage o) {e : MethodCall} (hb : stage.Belongs e)
    (r : Except Fault Handle) : (got o r).Belongs e := by
  cases hs with
  | handle =>
    cases hb
    exact .handed
  | command =>
    cases hb
    cases r with
    | error f => exact .answered
    | ok h => exact .sending

/-- A method call keeps to its stages. -/
theorem belongs (g : Transition m stage m' next) {e : MethodCall} (hb : stage.Belongs e) :
    next.Belongs e := by
  cases g with
  | refused hs hr => exact got_belongs hs hb _
  | direct hs hf ho => exact got_belongs hs hb _
  | borrow hs hf hp =>
    cases hs <;> cases hb
    · exact .borrowing
    · exact .borrowingFor
  | borrowed =>
    cases hb
    · exact .handed
    · exact got_belongs .command .acquiring _
  | @returned _ _ r =>
    cases hb
    · cases r <;> constructor
    · cases r <;> constructor
  | @shut _ r =>
    cases hb
    · cases r <;> constructor
    · cases r <;> constructor
  | _ =>
    cases hb
    constructor

theorem plan (g : Transition m stage m' next) : m'.plan = m.plan := by
  cases g with
  | init ha hc =>
    cases ha with
    | failed hm => rw [hm]
    | succeeded ho hf hm => rw [hm]
  | _ => rfl

/-- A facade is there for good. -/
theorem facade (g : Transition m stage m' next) {f : Facade} (hf : m.facade = some f) :
    m'.facade = some f := by
  cases g with
  | init ha hc =>
    cases ha with
    | failed hm => rw [hm, hf]
    | succeeded ho hn hm => exact absurd (hf.symm.trans hn) nofun
  | _ => exact hf

theorem closed (g : Transition m stage m' next) (hc : m.closed = true) : m'.closed = true := by
  cases g with
  | init ha =>
    cases ha with
    | failed hm => rw [hm, hc]
    | succeeded ho => exact absurd (hc.symm.trans ho) nofun
  | closeUnused | closePooled | closeDirect => rfl
  | _ => exact hc

/-- A facade is made according to the plan. -/
theorem fits_facade (g : Transition m stage m' next) (h : ∀ f, m.facade = some f → f.Fits m.plan)
    {f : Facade} (hf : m'.facade = some f) : f.Fits m'.plan := by
  rw [g.plan]
  cases g with
  | init ha =>
    cases ha with
    | failed hm =>
      rw [hm] at hf
      exact h f hf
    | succeeded ho hn hm hb he =>
      rw [hm] at hf
      cases hf
      exact he.fits
  | _ => exact h f hf

end Transition

/-- What a stage says about the facade of the manager. -/
def Fits (m : Manager) : Stage → Prop
  | borrowing t _ _ => ∃ p, m.facade = some ⟨t, .pooled p⟩
  | sending h _ | leaving h _ | returning _ (.handle (.ok h)) | ended (.handle (.ok h)) => m.Hands h
  | hangingUp c => ∃ t, m.facade = some ⟨t, .direct c⟩
  | _ => True

/-- Whoever borrows does so from a pool. -/
theorem pool_of_fits {m : Manager} {t : Topology} {p : Pool.Patience} {q : Option Order}
    (hs : Fits m (borrowing t p q)) : ∃ pool, m.pool? = some pool := by
  obtain ⟨pool, hf⟩ := hs
  refine ⟨pool, ?_⟩
  rw [Manager.pool?, hf]
  rfl

theorem fits_mono {m m' : Manager} {stage : Stage}
    (hf : ∀ f, m.facade = some f → m'.facade = some f) (hs : stage.Fits m) : stage.Fits m' := by
  have hands : ∀ {h}, m.Hands h → m'.Hands h := fun ⟨f, h, hh⟩ => ⟨f, hf f h, hh⟩
  cases stage with
  | borrowing t p o =>
    obtain ⟨p, h⟩ := hs
    exact ⟨p, hf _ h⟩
  | sending h o => exact hands hs
  | leaving h r => exact hands hs
  | returning h reply =>
    cases reply with
    | handle r => cases r <;> first | trivial | exact hands hs
    | _ => trivial
  | hangingUp c =>
    obtain ⟨t, h⟩ := hs
    exact ⟨t, hf _ h⟩
  | ended reply =>
    cases reply with
    | handle r => cases r <;> first | trivial | exact hands hs
    | _ => trivial
  | _ => trivial

namespace Transition

variable {m m' : Manager} {stage next : Stage}

theorem got_fits {o : Option Order} {r : Except Fault Handle} (h : ∀ g, r = .ok g → m.Hands g) :
    (got o r).Fits m := by
  cases r with
  | error f => cases o <;> trivial
  | ok g => cases o <;> exact h g rfl

theorem fits (g : Transition m stage m' next) (hs : stage.Fits m) : next.Fits m' := by
  cases g with
  | refused => exact got_fits nofun
  | direct _ hf =>
    refine got_fits fun h hh => ?_
    cases hh
    exact ⟨_, hf, rfl, rfl, rfl⟩
  | borrow _ hf => exact ⟨_, hf⟩
  | @borrowed t p o r =>
    refine got_fits fun h hh => ?_
    obtain ⟨p, hf⟩ := hs
    cases r with
    | error f => cases hh
    | ok got =>
      cases got with
      | none => cases hh
      | some c =>
        cases hh
        exact ⟨_, hf, rfl, rfl⟩
  | sent => exact hs
  | closeDirect _ hf => exact ⟨_, hf⟩
  | @returned _ reply r =>
    cases r with
    | ok got =>
      cases reply with
      | handle r => cases r <;> exact hs
      | _ => trivial
    | error f => cases reply <;> trivial
  | @shut _ r => cases r <;> trivial
  | _ => trivial

end Transition

end Stage

end RedisGateway
