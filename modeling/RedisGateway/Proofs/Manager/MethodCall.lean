import RedisGateway.Proofs.Manager.Attempts
import RedisGateway.Proofs.Manager.Forwarding

/-!
Method calls at a manager, taken apart into stages. A method call reads or changes the manager at
once, waits for a call of the pool, or asks something of a client; `Stage.move` says which, and what
comes after. Alone with the manager, a method call comes to what the operation of the manager comes
to.
-/

namespace RedisGateway

namespace Pool

/-- A call of a pool before it starts. -/
inductive Demand where
  | borrow (p : Patience)
  | giveBack (c : Conn)
  | close

namespace Demand

def patience : Demand → Patience
  | .borrow p => p
  | .giveBack _ | .close => .endless

/-- How a call starts. -/
def phase : Demand → Phase
  | .borrow _ => .seeking false false
  | .giveBack c => .accepting c
  | .close => .shutting

/-- Runs a call alone. -/
def run {σ : Type} (around : Surroundings σ) (policy : Policy) (d : Demand) (core : Core) (w : σ) :
    Result × Core × σ :=
  d.phase.run around policy d.patience core.callBound core w

end Demand
end Pool

/-- What someone comes to a manager for. -/
inductive MethodCall where
  | init (hosts : String) (password : Value) (options : Options)
  | handle
  /-- Calls a method of an executor. -/
  | command (o : Order)
  | release (h : Option Handle)
  | closePool
  | close

/-- What a method call comes to when it is alone with the manager. -/
def MethodCall.perform (s : Site) : MethodCall → Reply × Site
  | .init hosts password options =>
    let (r, s) := (Manager.init hosts password options).run s
    (.done r, s)
  | .handle => let (r, s) := Manager.handle.run s; (.handle r, s)
  | .command o => let (r, s) := o.issue.run s; (.value r, s)
  | .release h => let (r, s) := (Manager.release h).run s; (.done r, s)
  | .closePool => let (r, s) := Manager.closePool.run s; (.done r, s)
  | .close => let (r, s) := Manager.close.run s; (.done r, s)

/-- The reply stands, unless what closes the method call ends in a fault. -/
def Reply.unless {α : Type} (reply : Reply) : Except Fault α → Reply
  | .ok _ => reply
  | .error f => match reply with
    | .handle _ => .handle (.error f)
    | .done _ => .done (.error f)
    | .sent _ => .sent (.error f)
    | .value _ => .value (.error f)
    | .nothing => .nothing

/-- The fault that a reply tells of. -/
def Reply.fault? : Reply → Option Fault
  | .handle (.error f) | .done (.error f) | .sent (.error f) | .value (.error f) => some f
  | _ => none

/-! ## Stages -/

/-- How far a method call has come. -/
inductive Stage where
  | starting (e : MethodCall)
  /-- A call whose arguments fit is about to see where handles come from. -/
  | acquiring (o : Order)
  /-- Borrowing a client, for a call or for a handle to hand out. -/
  | borrowing (t : Topology) (p : Pool.Patience) (o : Option Order)
  | sending (h : Handle) (o : Order)
  /-- The call was answered and its handle is about to be released. -/
  | leaving (h : Handle) (r : Except Fault Value)
  /-- Giving a client back, after which this is the reply. -/
  | returning (h : Handle) (reply : Reply)
  /-- Closing the pool; `whole` if the manager is closed with it. -/
  | shutting (whole : Bool)
  /-- Closing the client that was open for good. -/
  | hangingUp (c : ClientId)
  | ended (reply : Reply)

namespace Stage

/-- What a method call does next. -/
inductive Move where
  /-- Reads and changes the manager at once. -/
  | look (f : Manager → Manager × Stage × List Notice)
  /-- Initializes the manager, which no other initialization and no closing interrupts. -/
  | establish (hosts : String) (password : Value) (options : Options)
  | call (d : Pool.Demand) (resume : Pool.Result → Stage × List Notice)
  | send (h : Handle) (o : Order) (resume : Outcome → Stage × List Notice)
  | hangUp (c : ClientId) (resume : Outcome → Stage × List Notice)
  | stop (reply : Reply)

/-- Where the answer to the request for a handle leads. -/
def got : Option Order → Except Fault Handle → Stage
  | none, r => .ended (.handle r)
  | some o, .ok h => .sending h o
  | some _, .error f => .ended (.value (.error f))

end Stage

namespace Manager

open Stage (got)

/-- Where handles come from. -/
def offer (m : Manager) (o : Option Order) : Stage :=
  match m.facade with
  | none => got o (.error .notInitialized)
  | some f => match f.backend with
    | .direct client =>
      if m.closed then got o (.error .managerClosed)
      else got o (.ok { topology := f.topology, client })
    | .pooled p => match p.policy.limits.patience none with
      | .ok p => .borrowing f.topology p o
      | .error e => got o (.error e)

/-- Where a handle goes that is released. -/
def takeBack (m : Manager) (h : Handle) (reply : Reply) : Stage :=
  match m.plan.pooling, m.pool? with
  | true, some _ => .returning h reply
  | _, _ => .ended reply

/-- The start of a closing. -/
def beginClose (m : Manager) : Manager × Stage × List Notice :=
  if m.closed then (m, .ended (.done (.ok ())), [])
  else
    let next := match m.facade.map (·.backend) with
      | none => (.ended (.done (.ok ())), [.unusedManagerClosed])
      | some (.pooled _) => (.shutting true, [])
      | some (.direct client) => (.hangingUp client, [])
    ({ m with closed := true }, next)

end Manager

namespace Stage

/-- What a failed attempt to close the client leaves to report. -/
def partingNotices : Outcome → List Notice
  | .ok _ => []
  | .error f => [.clientClosingFailed f]

/-- The first move of a method call. -/
def opening : MethodCall → Move
  | .init hosts password options => .establish hosts password options
  | .handle => .look fun m => (m, m.offer none, [])
  | .command o => .look fun m =>
    let next := match o.command.bind o.args o.named with
      | .ok _ => acquiring o
      | .error f => ended (.value (.error f))
    ({ m with registry := (m.registry.obtain o.category).2 }, next, [])
  | .release h => .look fun m =>
    let next := match h with
      | none => ended (.done (.ok ()))
      | some h => m.takeBack h (.done (.ok ()))
    (m, next, [])
  | .closePool => .look fun m => match m.pool? with
    | some _ => (m, shutting false, [])
    | none => (m, ended (.done (.ok ())), [.noPoolToClose])
  | .close => .look Manager.beginClose

/-- What a method call does next. -/
def move : Stage → Move
  | starting e => opening e
  | acquiring o => .look fun m => (m, m.offer (some o), [])
  | borrowing t p o => .call (.borrow p) fun r => (got o (Manager.handleOf t r), [])
  | sending h o => .send h o fun outcome =>
    (leaving h (Manager.resultOf o.call.command outcome),
      Manager.outcomeNotices o.call.command outcome)
  | leaving h r => .look fun m => (m, m.takeBack h (.value r), [])
  | returning h reply => .call (.giveBack h.client) fun r => (ended (reply.unless r), [])
  | shutting whole => .call .close fun r =>
    (ended ((Reply.done (.ok ())).unless r), if whole && r.isOk then [.managerClosed] else [])
  | hangingUp c => .hangUp c fun answer =>
    (ended (.done (.ok ())), partingNotices answer ++ [.managerClosed])
  | ended reply => .stop reply

/-- One move of a method call that is alone with the manager. -/
def advance (s : Site) (stage : Stage) : Stage × Site :=
  match stage.move with
  | .look f =>
    let (manager, next, notices) := f s.manager
    (next, { manager, world := s.world.noteAll notices })
  | .establish hosts password options =>
    let (r, s) := (Manager.init hosts password options).run s
    (ended (.done r), s)
  | .call d resume => match s.manager.facade with
    | some ⟨t, .pooled p⟩ =>
      let (r, core, w) := d.run (ConnectionPool.surroundings p.request) p.policy p.core s.world
      let (next, notices) := resume r
      (next, Manager.leave s t p core (w.noteAll notices))
    | _ => (stage, s)
  | .send h o resume =>
    let (outcome, remote) := s.world.remote.send h.client o.call
    let (next, notices) := resume outcome
    (next, { s with world := ({ s.world with remote }).noteAll notices })
  | .hangUp c resume =>
    let (answer, remote) := s.world.remote.close c
    let (next, notices) := resume answer
    (next, { s with world := ({ s.world with remote }).noteAll notices })
  | .stop _ => (stage, s)

/-- Some moves of a method call that is alone with the manager. -/
def run : Nat → Stage → Site → Stage × Site
  | 0, stage, s => (stage, s)
  | n + 1, stage, s =>
    let (next, s) := stage.advance s
    next.run n s

/-- A method call that is alone with the manager gets from one stage to another. -/
def Comes (stage : Stage) (s : Site) (next : Stage) (s' : Site) : Prop :=
  ∃ n, stage.run n s = (next, s')

theorem Comes.refl (stage : Stage) (s : Site) : stage.Comes s stage s := ⟨0, rfl⟩

theorem Comes.step {stage next last : Stage} {s t u : Site} (h : stage.advance s = (next, t))
    (h' : next.Comes t last u) : stage.Comes s last u := by
  obtain ⟨n, h'⟩ := h'
  exact ⟨n + 1, by simp only [run, h, h']⟩

theorem Comes.trans {stage next last : Stage} {s t u : Site} (h : stage.Comes s next t)
    (h' : next.Comes t last u) : stage.Comes s last u := by
  obtain ⟨n, h⟩ := h
  induction n generalizing stage s with
  | zero =>
    cases h
    exact h'
  | succ n ih => exact .step rfl (ih h)

/-- The request for a handle comes to what the manager answers it. -/
theorem offer_comes {s t u : Site} {r : Except Fault Handle} (h : Manager.handle.run s = (r, t))
    (o : Option Order) {last : Stage} (h' : (got o r).Comes t last u) :
    (s.manager.offer o).Comes s last u := by
  obtain ⟨⟨plan, facade, closed, registry⟩, world⟩ := s
  cases facade with
  | none =>
    cases h
    exact h'
  | some f =>
    obtain ⟨topology, backend⟩ := f
    cases backend with
    | direct client =>
      cases closed <;> cases h <;> exact h'
    | pooled p =>
      obtain ⟨got, core, w, hb⟩ : ∃ got core w, Pool.borrow
          (ConnectionPool.surroundings p.request) p.policy none p.core world = (got, core, w) :=
        ⟨_, _, _, rfl⟩
      have hr := Manager.handle_run (s := ⟨⟨plan, some ⟨topology, .pooled p⟩, closed, registry⟩,
        world⟩) rfl hb
      cases h.symm.trans hr
      simp only [Manager.offer]
      unfold Pool.borrow at hb
      cases hp : p.policy.limits.patience none with
      | error e =>
        rw [hp] at hb
        cases hb
        exact h'
      | ok patience =>
        rw [hp] at hb
        refine .step ?_ h'
        simp only [advance, move, Pool.Demand.run, Pool.Demand.phase, Pool.Demand.patience, hb]
        rfl

/-- The release of a handle comes to what the manager makes of it. -/
theorem takeBack_comes {s t u : Site} {r : Except Fault Unit} {h : Handle}
    (hr : (Manager.release (some h)).run s = (r, t)) (reply : Reply) {last : Stage}
    (h' : (ended (reply.unless r)).Comes t last u) :
    (s.manager.takeBack h reply).Comes s last u := by
  obtain ⟨⟨plan, facade, closed, registry⟩, world⟩ := s
  obtain ⟨codec, topology, pooling, limits⟩ := plan
  cases pooling with
  | false =>
    cases hr
    exact h'
  | true =>
    cases facade with
    | none =>
      cases hr
      exact h'
    | some f =>
      obtain ⟨topology, backend⟩ := f
      cases backend with
      | direct client =>
        cases hr
        exact h'
      | pooled p =>
        obtain ⟨got, core, w, hb⟩ : ∃ got core w, Pool.giveBack
            (ConnectionPool.surroundings p.request) p.policy h.client p.core world =
              (got, core, w) := ⟨_, _, _, rfl⟩
        cases hr.symm.trans (Manager.release_run rfl rfl hb)
        unfold Pool.giveBack at hb
        show (returning h reply).Comes _ _ _
        refine .step ?_ h'
        simp only [advance, move, Pool.Demand.run, Pool.Demand.phase, Pool.Demand.patience, hb]
        cases got <;> rfl

/-- A call that was sent comes to its outcome, and what is reported about it. -/
theorem exchange_comes (h : Handle) (o : Order) (s : Site) :
    ∃ t, (sending h o).Comes s
      (leaving h (Manager.resultOf o.call.command (s.world.remote.send h.client o.call).1)) t ∧
    (do
      let outcome ← Manager.send h o.call
      for n in Manager.outcomeNotices o.call.command outcome do Manager.note n
      Manager.resultOf o.call.command outcome : Act Site Value).run s =
        (Manager.resultOf o.call.command (s.world.remote.send h.client o.call).1, t) := by
  obtain ⟨outcome, r, ho⟩ : ∃ outcome r, s.world.remote.send h.client o.call = (outcome, r) :=
    ⟨_, _, rfl⟩
  have hs : (Manager.send h o.call).run s =
      (.ok outcome, { s with world := { s.world with remote := r } }) := by
    show Manager.send h o.call s = _
    simp only [Manager.send, ho]
  refine ⟨⟨s.manager, World.noteAll { s.world with remote := r }
    (Manager.outcomeNotices o.call.command outcome)⟩, .step ?_ (.refl _ _), ?_⟩
  · simp only [advance, move, ho]
  · rw [Act.run_bind, hs, ho]
    cases outcome with
    | ok v => rfl
    | error f =>
      simp only [Manager.outcomeNotices, Manager.resultOf]
      by_cases hk : f.kind.isConnectivity = true
      · simp only [if_pos hk]
        rfl
      · simp only [if_neg hk]
        split <;> rfl

theorem command_comes {o : Order} {s t : Site} {r : Except Fault Value}
    (h : o.issue.run s = (r, t)) : (starting (.command o)).Comes s (.ended (.value r)) t := by
  rw [Order.issue_run] at h
  cases hb : o.command.bind o.args o.named with
  | error f =>
    rw [hb] at h
    cases h
    refine .step ?_ (.refl _ _)
    simp only [advance, move, opening, hb]
    rfl
  | ok call =>
    rw [hb] at h
    obtain ⟨-, rfl⟩ := Command.bind_ok_iff.mp hb
    have hs : (starting (.command o)).advance s = (acquiring o, o.prepared s) := by
      simp only [advance, move, opening, hb]
      rfl
    refine .step hs (.step rfl ?_)
    obtain ⟨got, s₁, hh⟩ : ∃ got s₁, Manager.handle.run (o.prepared s) = (got, s₁) := ⟨_, _, rfl⟩
    refine offer_comes hh (some o) ?_
    change (Manager.withHandle _).run _ = _ at h
    rw [Manager.withHandle, Act.run_bind, hh] at h
    cases got with
    | error f =>
      cases h
      exact .refl _ _
    | ok handle =>
      obtain ⟨s₂, hc, hx⟩ := exchange_comes handle o s₁
      obtain ⟨back, s₃, hr⟩ : ∃ back s₃, (Manager.release (some handle)).run s₂ = (back, s₃) :=
        ⟨_, _, rfl⟩
      cases h.symm.trans (Manager.thenAlways_run hx hr)
      refine hc.trans (.step rfl (takeBack_comes hr _ ?_))
      cases back <;> exact .refl _ _

/-- A pool that is closed by itself or with the manager. -/
theorem shutting_comes {s t : Site} {topology : Topology} {p : ConnectionPool}
    {r : Except Fault Unit} (hf : s.manager.facade = some ⟨topology, .pooled p⟩)
    (h : (Manager.shutPool ⟨topology, .pooled p⟩ p).run s = (r, t)) (whole : Bool) :
    (shutting whole).Comes s (.ended (.done r)) (if whole && r.isOk then
      { t with world := t.world.note .managerClosed } else t) := by
  obtain ⟨got, core, w, hb⟩ : ∃ got core w, Pool.close (ConnectionPool.surroundings p.request)
      p.policy p.core s.world = (got, core, w) := ⟨_, _, _, rfl⟩
  cases h.symm.trans (Manager.shutPool_run hb)
  unfold Pool.close at hb
  refine .step ?_ (.refl _ _)
  simp only [advance, move, hf, Pool.Demand.run, Pool.Demand.phase, Pool.Demand.patience, hb]
  cases whole <;> cases got <;> rfl

theorem closePool_comes {s t : Site} {r : Except Fault Unit}
    (h : Manager.closePool.run s = (r, t)) :
    (starting .closePool).Comes s (.ended (.done r)) t := by
  obtain ⟨⟨plan, facade, closed, registry⟩, world⟩ := s
  cases facade with
  | none =>
    cases h
    exact .step rfl (.refl _ _)
  | some f =>
    obtain ⟨topology, backend⟩ := f
    cases backend with
    | direct client =>
      cases h
      exact .step rfl (.refl _ _)
    | pooled p => exact .step rfl (shutting_comes rfl h false)

theorem closeClient_run (client : ClientId) (s : Site) : (Manager.closeClient client).run s =
    (.ok (), ⟨s.manager, World.noteAll { s.world with remote := (s.world.remote.close client).2 }
      (partingNotices (s.world.remote.close client).1)⟩) := by
  have got : (get : Act Site Site).run s = (.ok s, s) := rfl
  have put : ∀ t : Site, (set t : Act Site PUnit).run s = (.ok ⟨⟩, t) := fun _ => rfl
  simp only [Manager.closeClient, Act.run_bind, got, put]
  cases (s.world.remote.close client).1 <;> rfl

theorem close_comes {s t : Site} {r : Except Fault Unit} (h : Manager.close.run s = (r, t)) :
    (starting .close).Comes s (.ended (.done r)) t := by
  obtain ⟨⟨plan, facade, closed, registry⟩, world⟩ := s
  cases closed with
  | true =>
    cases h
    exact .step rfl (.refl _ _)
  | false =>
    cases facade with
    | none =>
      cases h
      exact .step rfl (.refl _ _)
    | some f =>
      obtain ⟨topology, backend⟩ := f
      cases backend with
      | direct client =>
        have hr : Manager.close.run ⟨⟨plan, some ⟨topology, .direct client⟩, false, registry⟩,
            world⟩ = (Manager.closeClient client >>= fun _ => Manager.note .managerClosed).run
            ⟨⟨plan, some ⟨topology, .direct client⟩, true, registry⟩, world⟩ := rfl
        rw [hr, Act.run_bind, closeClient_run] at h
        cases h
        refine .step rfl (.step rfl ?_)
        have hn : ∀ (w : World) (ns : List Notice),
            w.noteAll (ns ++ [.managerClosed]) = (w.noteAll ns).note .managerClosed := by
          intro w ns
          exact List.foldl_append
        dsimp only [move]
        rw [hn]
        exact .refl _ _
      | pooled p =>
        have hr : Manager.close.run ⟨⟨plan, some ⟨topology, .pooled p⟩, false, registry⟩,
            world⟩ = (Manager.shutPool ⟨topology, .pooled p⟩ p >>= fun _ =>
              Manager.note .managerClosed).run
            ⟨⟨plan, some ⟨topology, .pooled p⟩, true, registry⟩, world⟩ := rfl
        obtain ⟨got, u, hs⟩ : ∃ got u, (Manager.shutPool ⟨topology, .pooled p⟩ p).run
            ⟨⟨plan, some ⟨topology, .pooled p⟩, true, registry⟩, world⟩ = (got, u) := ⟨_, _, rfl⟩
        rw [hr, Act.run_bind, hs] at h
        refine .step rfl ?_
        have hc := shutting_comes rfl hs true
        cases got with
        | ok =>
          cases h
          exact hc
        | error f =>
          cases h
          exact hc

end Stage

/-- Alone with the manager, a method call comes to its end through its stages as the operation of
the manager does. -/
theorem MethodCall.comes_to_end (e : MethodCall) (s : Site) :
    (Stage.starting e).Comes s (.ended (e.perform s).1) (e.perform s).2 := by
  cases e with
  | init hosts password options => exact .step rfl (.refl _ _)
  | handle =>
    refine .step rfl (Stage.offer_comes rfl none ?_)
    exact .refl _ _
  | command o => exact Stage.command_comes rfl
  | release h =>
    cases h with
    | none =>
      have hr : (Manager.release none).run s = (.ok (), s) := by
        obtain ⟨⟨⟨_, _, pooling, _⟩, facade, closed, registry⟩, world⟩ := s
        cases pooling <;> rfl
      simp only [perform, hr]
      exact .step rfl (.refl _ _)
    | some h =>
      cases hr : (Manager.release (some h)).run s with
      | mk r t =>
        simp only [perform, hr]
        refine .step rfl (Stage.takeBack_comes hr _ ?_)
        cases r <;> exact .refl _ _
  | closePool => exact Stage.closePool_comes rfl
  | close => exact Stage.close_comes rfl

end RedisGateway
