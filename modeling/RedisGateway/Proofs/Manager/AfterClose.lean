import RedisGateway.Proofs.Manager.Closing

/-!
Whoever comes to a closed manager and needs an open one. Such a method call learns sooner or later
that the manager is closed, and on its way there it asks nothing of the remote side.
-/

namespace RedisGateway

/-- The method calls that need an open manager: to initialize it, to get a handle, and to call a
method of an executor with arguments that fit. The longest wait for a handle is a number that the
clock takes. -/
def MethodCall.NeedsOpen (plan : ManagerPlan) : MethodCall → Prop
  | .init .. => True
  | .handle => (plan.limits.patience none).isOk = true
  | .command o => o.Fits ∧ (plan.limits.patience none).isOk = true
  | _ => False

/-- The family of the faults in which such a method call ends at a closed manager. -/
def MethodCall.lateFamily (m : Manager) : MethodCall → Family
  | .init .. => .initialization
  | _ => if m.pool?.isSome then .closed else .initialization

namespace ManagerSystem

variable {plan : ManagerPlan} {o o' : ManagerSystem} {h : Happening}

/-- What a method call that came late has come to: it has yet to learn that the manager is closed,
or has ended in a fault that says so. -/
inductive TurnedDown (system : ManagerSystem) (e : MethodCall) : Stage → Option Nat → Prop where
  | starting : TurnedDown system e (.starting e) none
  | acquiring {order} : TurnedDown system e (.acquiring order) none
  | borrowing {t p q} : TurnedDown system e (.borrowing t p q) none
  | seeking {t p q i late again}
      (hi : system.tracked.system.phase? i = some (.seeking late again)) :
      TurnedDown system e (.borrowing t p q) (some i)
  | refused {t p q i pool} (hp : system.manager.pool? = some pool)
      (hi : system.tracked.system.phase? i =
        some (.finished (.error (.poolClosed pool.policy.name)))) :
      TurnedDown system e (.borrowing t p q) (some i)
  | ended {reply f} (hr : reply.fault? = some f)
      (hf : f.family? = some (e.lateFamily system.manager)) :
      TurnedDown system e (.ended reply) none

theorem pool_congr (hf : o'.manager.facade = o.manager.facade) :
    o'.manager.pool? = o.manager.pool? := by
  rw [Manager.pool?, hf]
  rfl

theorem lateFamily_congr (hf : o'.manager.facade = o.manager.facade) (e : MethodCall) :
    e.lateFamily o'.manager = e.lateFamily o.manager := by
  cases e <;> simp only [MethodCall.lateFamily, pool_congr hf]

/-- How a closed manager itself refuses a handle. -/
theorem refuses_family (ho : o.Orderly plan) (hw : (plan.limits.patience none).isOk = true)
    {f : Fault} (hr : o.manager.Refuses f) :
    f.family? = some (if o.manager.pool?.isSome then .closed else .initialization) := by
  cases hr with
  | uninitialized hf =>
    rw [Manager.pool?, hf]
    rfl
  | closed hf hc =>
    rw [Manager.pool?, hf]
    rfl
  | @unwaitable t p e hf hp =>
    have hpol := (ho.pool (p := p) (by rw [Manager.pool?, hf]; rfl)).2
    rw [hpol] at hp
    rw [hp] at hw
    cases hw

/-- A look at a closed manager. -/
theorem TurnedDown.passed (ho : o.Orderly plan) (hs : o.Shut)
    (hf : o'.manager.facade = o.manager.facade) {e : MethodCall} {stage next : Stage}
    {thread : Option Nat} {m : Manager} (ht : TurnedDown o e stage thread)
    (hb : stage.Belongs e) (he : e.NeedsOpen plan) (hc : ∀ d resume, stage.move ≠ .call d resume)
    (hg : Stage.Transition o.manager stage m next) : TurnedDown o' e next thread := by
  -- a refusal ends the method call, whether it wanted a handle for itself or for a call
  have got : ∀ {q : Option Order} {f : Fault}, o.manager.Refuses f →
      (plan.limits.patience none).isOk = true →
      e.lateFamily o.manager = (if o.manager.pool?.isSome then .closed else .initialization) →
      TurnedDown o' e (.got q (.error f)) none := by
    intro q f hr hw hl
    have hfam := refuses_family ho hw hr
    rw [← hl, ← lateFamily_congr hf] at hfam
    cases q <;> exact .ended rfl hfam
  cases ht with
  | starting =>
    cases hg with
    | init ha hr =>
      rw [hr hs.closed]
      exact .ended rfl rfl
    | refused hask hr =>
      cases hask
      exact got hr he rfl
    | direct hask hd hopen => cases hs.closed.symm.trans hopen
    | borrow => exact .borrowing
    | misfit hn => exact absurd he.1 hn
    | fit => exact .acquiring
    | _ => exact he.elim
  | acquiring =>
    cases hb
    cases hg with
    | refused hask hr =>
      cases hask
      exact got hr he.2 rfl
    | direct hask hd hopen => cases hs.closed.symm.trans hopen
    | borrow => exact .borrowing
  | borrowing | seeking | refused => exact absurd rfl (hc _ _)
  | ended =>
    cases hg with
    | refused hask | direct hask | borrow hask => cases hask

/-- What others do does not help a method call that came late. -/
theorem TurnedDown.mono (st : Step o h o') (hs : o.Shut) {e : MethodCall} {stage : Stage}
    {thread : Option Nat} (ht : TurnedDown o e stage thread) (hfit : stage.Fits o.manager) :
    TurnedDown o' e stage thread := by
  have hf := st.facade_of_closed hs.closed
  cases ht with
  | starting => exact .starting
  | acquiring => exact .acquiring
  | borrowing => exact .borrowing
  | seeking hi =>
    -- the pool is closed too, so the next look at it ends the borrow
    obtain ⟨p, hfac⟩ := hfit
    rcases st.tracked hfac with hsc | ⟨q, e, hq, hsc⟩
    · exact .seeking (by rw [hsc, hi])
    · rcases hsc.seeking (hs.pool q hq) hi with ⟨late, again, hi'⟩ | hi'
      · exact .seeking hi'
      · exact .refused (by rw [pool_congr hf, hq]) hi'
  | refused hp hi =>
    obtain ⟨p, hfac⟩ := hfit
    rcases st.tracked hfac with hsc | ⟨q, e, hq, hsc⟩
    · exact .refused (by rw [pool_congr hf, hp]) (by rw [hsc, hi])
    · exact .refused (by rw [pool_congr hf, hp]) (hsc.finished hi)
  | ended hr hfam => exact .ended hr (by rw [hfam, lateFamily_congr hf])

theorem TurnedDown.advance (st : Step o h o') (ho : o.Orderly plan) (hs : o.Shut) {x x' : Caller}
    (hx : x ∈ o.callers) (he : x.method.NeedsOpen plan)
    (ht : TurnedDown o x.method x.stage x.thread) (ha : Advance o o' x x') :
    TurnedDown o' x'.method x'.stage x'.thread := by
  have hf := st.facade_of_closed hs.closed
  have hfit := ho.fits x hx
  have hb := ho.belongs x hx
  obtain ⟨e, stage, thread, loan⟩ := x
  change TurnedDown o e stage thread at ht
  cases ha with
  | same | handedOver => exact ht.mono st hs hfit
  | passed hg hc => exact ht.passed ho hs hf hb he hc hg
  | @entered d resume p hm hth hp hst =>
    -- of the calls of the pool, only a borrow can be next
    have hn : ∃ t p q, stage = .borrowing t p q := by
      cases ht with
      | starting =>
        have hm : Stage.opening e = .call d resume := hm
        cases e <;> cases hm
      | borrowing => exact ⟨_, _, _, rfl⟩
      | seeking | refused => exact ⟨_, _, _, rfl⟩
      | acquiring | ended => cases hm
    obtain ⟨t, p, q, rfl⟩ := hn
    cases hm
    have hi : o'.tracked.system.phase? o.tracked.system.threads.length =
        some (.seeking false false) := by
      generalize o'.tracked = tracked at hst
      cases hst
      exact (Pool.System.phase?_start ..).trans (if_pos rfl)
    exact .seeking hi
  | @cameBack d resume i r hm hth hfin hg =>
    cases hth
    cases ht with
    | seeking hi => cases hi.symm.trans hfin
    | @refused t p q _ pool hp hi =>
      cases hi.symm.trans hfin
      cases hm
      change (Stage.borrowing t p q).Belongs e at hb
      have hfam : (Fault.poolClosed pool.policy.name).family? = some (e.lateFamily o'.manager) := by
        rw [lateFamily_congr hf]
        cases hb <;> simp only [MethodCall.lateFamily, hp] <;> rfl
      cases q <;> exact .ended rfl hfam

/-- A closed manager to which the callers from some number on came late. -/
structure Late (plan : ManagerPlan) (n : Nat) (o : ManagerSystem) : Prop where
  orderly : o.Orderly plan
  shut : o.Shut
  turned : ∀ v x, n ≤ v → o.callers[v]? = some x → x.method.NeedsOpen plan →
    TurnedDown o x.method x.stage x.thread

variable {n : Nat}

theorem Step.late (st : Step o h o') (hl : o.Late plan n) : o'.Late plan n := by
  refine ⟨st.orderly hl.orderly, st.shut hl.shut, fun v x' hn hx' he => ?_⟩
  rcases st.caller_of hx' with ⟨x, hx, ha⟩ | ⟨-, hnew⟩
  · have hxe : x'.method = x.method := by cases ha <;> rfl
    rw [hxe] at he
    exact (hl.turned v x hn hx he).advance st hl.orderly hl.shut (List.mem_of_getElem? hx) he ha
  · cases hnew <;> exact .starting

theorem Leads.late {rule : Rule} (hr : Leads rule o o') (hl : o.Late plan n) : o'.Late plan n :=
  hr.keeps hl fun _ st => st.late

/-- The steps that a caller takes itself. -/
def Acts (o : ManagerSystem) (v : Nat) : Happening → Prop
  | .look w | .establish w _ | .enter w | .back w | .sent w _ | .hungUp w _ => w = v
  | .inside e => ∃ x i, o.callers[v]? = some x ∧ x.thread = some i ∧ e.thread? = some i
  | .arrive _ | .handOver _ => False

/-- Whoever came late asks nothing of the remote side: no client is opened or closed, and none gets
a command. -/
theorem Late.quiet (hl : o.Late plan n) {v : Nat} (hn : n ≤ v) {x : Caller}
    (hx : o.callers[v]? = some x) (he : x.method.NeedsOpen plan) (st : Step o h o')
    (ha : o.Acts v h) : o'.events = o.events := by
  have ht := hl.turned v x hn hx he
  cases st with
  | arrive | handOver => exact ha.elim
  | look | enter | back => rfl
  | establish hv hm hc hev hi =>
    obtain ⟨-, rfl⟩ := Manager.init_closed hl.shut.closed hi
    exact hev
  | @inside p e tracked hp hh hc hst =>
    obtain ⟨y, i, hy, hth, hei⟩ := ha
    cases hx.symm.trans hy
    -- its call of the pool has nothing to ask
    have asks : ∀ {r : Pool.Request} {resume},
        o.tracked.move? p.policy i ≠ some (.ask r resume) := by
      intro r resume hm
      obtain ⟨thread, hthread, hm⟩ := Pool.TrackedSystem.thread_of_move hm
      have hi := Pool.TrackedSystem.phase?_of_thread hthread
      rw [hth] at ht
      generalize x.stage = stage at ht
      cases ht with
      | seeking hi' =>
        rw [Option.some.inj (hi.symm.trans hi')] at hm
        cases hm
      | refused hp' hi' =>
        rw [Option.some.inj (hi.symm.trans hi')] at hm
        cases hm
    cases hst with
    | supplied hm | pinged hm | closed hm =>
      cases hei
      exact absurd hm asks
    | _ => rfl
  | sent hv hm =>
    cases ha
    cases hx.symm.trans hv
    generalize x.thread = thread at ht
    generalize x.stage = stage at ht hm
    cases ht with
    | starting => generalize x.method = e at hm; cases e <;> cases hm
    | _ => cases hm
  | hungUp hv hm =>
    cases ha
    cases hx.symm.trans hv
    generalize x.thread = thread at ht
    generalize x.stage = stage at ht hm
    cases ht with
    | starting => generalize x.method = e at hm; cases e <;> cases hm
    | _ => cases hm

/-! ## Being turned away -/

/-- A caller can come to its end by its own steps. -/
def CanEnd (o : ManagerSystem) (v : Nat) : Prop :=
  ∃ o' x, Leads (fun o h => o.Acts v h) o o' ∧ o'.callers[v]? = some x ∧ x.Ended

variable {v : Nat} {x : Caller}

theorem CanEnd.step (st : Step o h o') (ha : o.Acts v h) (hc : o'.CanEnd v) : o.CanEnd v := by
  obtain ⟨o'', x, hl, hx⟩ := hc
  exact ⟨o'', x, hl.head ha st, hx⟩

theorem CanEnd.of_ended (hx : o.callers[v]? = some x) (he : x.Ended) : o.CanEnd v :=
  ⟨o, x, .refl, hx, he⟩

theorem put_same (hx : o.callers[v]? = some x) (y : Caller) :
    (o.callers.set v y)[v]? = some y := by
  rw [put_caller hx, if_pos rfl]

/-- A borrow that has failed ends the method call that it is for, -/
theorem failed_borrow_can_end (hx : o.callers[v]? = some x) {t : Topology} {p : Pool.Patience}
    {q : Option Order} (hs : x.stage = .borrowing t p q) {i : Nat} (hi : x.thread = some i)
    {f : Fault} (hf : o.tracked.system.phase? i = some (.finished (.error f))) : o.CanEnd v := by
  have hm : x.stage.move = .call (.borrow p) fun r => (.got q (Manager.handleOf t r), []) := by
    rw [hs]
    rfl
  refine .step (.back hx hm hi hf) rfl (.of_ended (put_same hx _) ?_)
  cases q <;> exact ⟨_, rfl⟩

/-- and so does a borrow that fails in its next turn. -/
theorem failing_borrow_can_end (hx : o.callers[v]? = some x) {t : Topology} {p : Pool.Patience}
    {q : Option Order} (hs : x.stage = .borrowing t p q) {i : Nat} (hi : x.thread = some i)
    {pool : ConnectionPool} (hp : o.manager.pool? = some pool) {thread : Pool.Thread}
    (ht : o.tracked.system.threads[i]? = some thread) {turn : Pool.Core → Pool.Turn}
    (hm : thread.phase.move pool.policy thread.patience = .hold turn) {f : Fault}
    (hn : (turn o.tracked.core).next = .finished (.error f)) : o.CanEnd v := by
  have hmove : o.tracked.move? pool.policy i = some (.hold turn) := by
    rw [Pool.TrackedSystem.move?, ht]
    exact congrArg some hm
  have hc : ∀ j c, Pool.Happening.turn i = .supplied j c → c = o.count := by
    intro j c h
    cases h
  refine .step (.inside hp rfl hc (.turn hmove)) ⟨x, i, hx, hi, rfl⟩
    (failed_borrow_can_end (f := f) hx hs hi ?_)
  rcases @Pool.System.hold_phase?_own _ _ _ turn (Pool.TrackedSystem.phase?_of_thread ht)
    with hf | hf
  · exact hf.trans (congrArg some hn)
  · exact hf.trans (congrArg (some ·.roused) hn)

/-- A borrow of the closed pool ends in a refusal, -/
theorem Late.borrow_can_end (hl : o.Late plan n) (hn : n ≤ v) (hx : o.callers[v]? = some x)
    (he : x.method.NeedsOpen plan) {t : Topology} {p : Pool.Patience} {q : Option Order}
    (hs : x.stage = .borrowing t p q) {i : Nat} (hi : x.thread = some i) : o.CanEnd v := by
  have ht := hl.turned v x hn hx he
  obtain ⟨pool, hp⟩ := Stage.pool_of_fits (hs ▸ hl.orderly.fits x (List.mem_of_getElem? hx))
  rw [hs, hi] at ht
  cases ht with
  | refused _ hf => exact failed_borrow_can_end hx hs hi hf
  | @seeking _ _ _ _ late again hk =>
    obtain ⟨⟨patience, phase⟩, hthread, rfl⟩ := Option.map_eq_some_iff.mp hk
    refine failing_borrow_can_end hx hs hi hp hthread rfl (f := .poolClosed pool.policy.name) ?_
    rw [Pool.seek, if_pos (hl.shut.pool pool hp)]

/-- so does the borrow that is about to start, -/
theorem Late.call_can_end (hl : o.Late plan n) (hn : n ≤ v) (hx : o.callers[v]? = some x)
    (he : x.method.NeedsOpen plan) {t : Topology} {p : Pool.Patience} {q : Option Order}
    (hs : x.stage = .borrowing t p q) (hi : x.thread = none) : o.CanEnd v := by
  obtain ⟨pool, hp⟩ := Stage.pool_of_fits (hs ▸ hl.orderly.fits x (List.mem_of_getElem? hx))
  -- a call of the pool starts if it may wait as long as the limits of the pool say
  obtain ⟨wait, hw⟩ : ∃ wait, pool.policy.limits.patience none = .ok wait := by
    have hb := hl.orderly.belongs x (List.mem_of_getElem? hx)
    have : (plan.limits.patience none).isOk = true := by
      rw [hs] at hb
      generalize x.method = e at he hb
      cases hb with
      | borrowing => exact he
      | borrowingFor => exact he.2
    rw [(hl.orderly.pool hp).2]
    generalize plan.limits.patience none = wait at this
    cases wait with
    | error f => cases this
    | ok wait => exact ⟨wait, rfl⟩
  have st := Step.enter hx (by rw [hs]; rfl) hi hp (.borrow hw)
  exact .step st rfl ((st.late hl).borrow_can_end hn (put_same hx _) he hs rfl)

/-- and so does every method call that has asked for a handle. -/
theorem Late.asked_can_end (hl : o.Late plan n) (hn : n ≤ v) (hx : o.callers[v]? = some x)
    (he : x.method.NeedsOpen plan) {m : Manager} {q : Option Order} (hs : x.stage = m.offer q) :
    o.CanEnd v := by
  have ht := hl.turned v x hn hx he
  have hoffer : (∃ r, x.stage = .got q r) ∨ ∃ t p, x.stage = .borrowing t p q := by
    rw [hs, Manager.offer]
    repeat' split
    all_goals first | exact .inl ⟨_, rfl⟩ | exact .inr ⟨_, _, rfl⟩
  rcases hoffer with ⟨r, hr⟩ | ⟨t, p, hb⟩
  · rw [hr] at ht
    refine .of_ended hx ?_
    cases q with
    | none => exact ⟨_, hr⟩
    | some order =>
      cases r with
      | error f => exact ⟨_, hr⟩
      | ok g => cases ht
  · cases hth : x.thread with
    | none => exact hl.call_can_end hn hx he hb hth
    | some i => exact hl.borrow_can_end hn hx he hb hth

/-- Whoever came late is not kept waiting. -/
theorem Late.can_end (hl : o.Late plan n) (hn : n ≤ v) (hx : o.callers[v]? = some x)
    (he : x.method.NeedsOpen plan) : o.CanEnd v := by
  have ht := hl.turned v x hn hx he
  -- from the look at where handles come from
  have acquiring : ∀ {o : ManagerSystem} {x : Caller} {order : Order}, o.Late plan n →
      o.callers[v]? = some x → x.method.NeedsOpen plan → x.stage = .acquiring order →
      o.CanEnd v := by
    intro o x order hl hx he hs
    have st := Step.look hx (by rw [hs]; rfl)
    exact .step st rfl ((st.late hl).asked_can_end hn (put_same hx _) he rfl)
  cases hs : x.stage with
  | starting e =>
    obtain rfl : e = x.method := by
      rw [hs] at ht
      generalize x.thread = thread at ht
      cases ht
      rfl
    cases hxe : x.method with
    | init hosts password options =>
      have st := @Step.establish o v x { remote := { opened := o.count, events := o.events } }
        hosts password options _ _ hx (by rw [hs, hxe]; rfl) rfl rfl rfl
      exact .step st rfl (.of_ended (put_same hx _) ⟨_, rfl⟩)
    | handle =>
      have st := Step.look hx (by rw [hs, hxe]; rfl)
      exact .step st rfl ((st.late hl).asked_can_end hn (put_same hx _) he rfl)
    | command order =>
      have st := Step.look hx (by rw [hs, hxe]; rfl)
      have hl' := st.late hl
      rw [hxe] at he
      have hb := Command.bind_ok_iff.mpr ⟨he.1, rfl⟩
      refine .step st rfl (@acquiring _ _ order hl' (put_same hx _) (hxe ▸ he) ?_)
      simp only [hb]
    | release | closePool | close =>
      rw [hxe] at he
      exact he.elim
  | acquiring order => exact acquiring hl hx he hs
  | borrowing t p q =>
    cases hth : x.thread with
    | none => exact hl.call_can_end hn hx he hs hth
    | some i => exact hl.borrow_can_end hn hx he hs hth
  | ended reply => exact .of_ended hx ⟨reply, hs⟩
  | _ =>
    rw [hs] at ht
    cases ht

/-- How a method call ends that came late. -/
theorem Late.fault (hl : o.Late plan n) (hn : n ≤ v) (hx : o.callers[v]? = some x)
    (he : x.method.NeedsOpen plan) {reply : Reply} (hs : x.stage = .ended reply) :
    ∃ f, reply.fault? = some f ∧ f.family? = some (x.method.lateFamily o.manager) := by
  have ht := hl.turned v x hn hx he
  rw [hs] at ht
  generalize x.thread = thread at ht
  cases ht with
  | ended hr hf => exact ⟨_, hr, hf⟩

end ManagerSystem
end RedisGateway
