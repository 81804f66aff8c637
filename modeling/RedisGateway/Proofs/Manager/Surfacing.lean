import RedisGateway.Proofs.Manager.AfterClose
import RedisGateway.Proofs.Manager.Loans
import RedisGateway.Proofs.Manager.Refusals
import RedisGateway.Proofs.Manager.Script

/-!
How a refusal to open a client surfaces, in an initialization or in a borrow later on. Of a borrow
that was refused a client nothing is left to happen but its end, whatever others do meanwhile.
-/

namespace RedisGateway

/-- Stages that wait for a borrow. -/
def Stage.borrows : Stage → Bool
  | .borrowing .. => true
  | _ => false

theorem Stage.eq_of_borrows {stage : Stage} (h : stage.borrows = true) :
    ∃ t p q, stage = .borrowing t p q := by
  cases stage with
  | borrowing t p q => exact ⟨t, p, q, rfl⟩
  | _ => cases h

/-- A call of the pool is of the kind that the stage waits for. -/
theorem Stage.serves_of_call {stage : Stage} {d : Pool.Demand}
    {resume : Pool.Result → Stage × List Notice} (hm : stage.move = .call d resume) :
    d.phase.serves stage.borrows := by
  cases stage with
  | starting e => cases e <;> cases hm
  | borrowing | returning | shutting =>
    cases hm
    rfl
  | _ => cases hm

namespace Pool.TrackedSystem

variable {policy : Policy} {s t : TrackedSystem} {h : Happening} {i : Nat} {f : Failure}

/-- A borrow that was refused a connection, and has yet to say so or has done so. -/
def Refused (s : TrackedSystem) (i : Nat) (f : Failure) : Prop :=
  s.system.phase? i = some (.forgoing f) ∨
    s.system.phase? i = some (.finished (.error (.notOpened f)))

/-- Whatever happens, the refusal is what the borrow ends in. -/
theorem Step.stays_refused (st : Step policy s h t) (hr : s.Refused i f) : t.Refused i f := by
  rcases hr with hi | hi
  · by_cases hh : h.thread? = some i
    · obtain ⟨next, hn, ho⟩ := st.onward hi hh
      generalize t.core = core at ho
      cases ho with
      | late => exact .inl hn
      | turned hm hnext =>
        cases hm
        rcases hnext with rfl | rfl <;> exact .inr hn
      | answered hm => cases hm
    · rcases st.elsewhere hi hh with hn | hn <;> exact .inl hn
  · exact .inr (st.finished hi)

/-- Only a borrow asks for a connection, and when it is refused it gives up. -/
theorem Step.refuses (st : Step policy s (.refused i f) t) :
    s.system.phase? i = some .opening ∧ t.Refused i f := by
  cases st with
  | refused hm =>
    obtain ⟨thread, ht, hm⟩ := thread_of_move hm
    obtain ⟨patience, phase⟩ := thread
    have hi := phase?_of_thread ht
    cases phase with
    | opening =>
      cases hm
      refine ⟨hi, .inl ((System.phase?_setPhase ..).trans ?_)⟩
      rw [if_pos rfl, hi]
      rfl
    | _ => cases hm

end Pool.TrackedSystem

namespace ManagerSystem

variable {plan : ManagerPlan} {rule rule' : Rule} {o o₁ o' : ManagerSystem} {h : Happening}
  {i : Nat}
  {f : Failure}

/-- Whoever waits for a call of the pool, whatever callers do, waits for one of the right kind; and
someone waits for every call that goes on. -/
structure Attended (o : ManagerSystem) : Prop where
  running : ∀ i q, o.tracked.system.phase? i = some q →
    (∃ r, q = .finished r) ∨ ∃ x ∈ o.callers, x.thread = some i
  serves : ∀ x ∈ o.callers, ∀ i, x.thread = some i →
    ∃ q, o.tracked.system.phase? i = some q ∧ q.serves x.stage.borrows

theorem Step.attended (st : Step o h o') (ho : o.Orderly plan) (ha : o.Accounts)
    (hk : o.Attended) : o'.Attended := by
  refine ⟨st.running ha hk.running, fun x' hx' i hi => ?_⟩
  obtain ⟨settled, hfollows⟩ := st.follows ha
  rcases st.mem_callers hx' with ⟨x, hx, hadv⟩ | hn
  · have goesOn : x.thread = some i →
        ∃ q, o'.tracked.system.phase? i = some q ∧ q.serves x.stage.borrows := by
      intro hi
      obtain ⟨q, hq, hs⟩ := hk.serves x hx i hi
      exact hfollows.serves i q _ hq hs
    cases hadv with
    | same | handedOver => exact goesOn hi
    | passed hg hc =>
      -- whoever waits for a call of the pool has nothing else to do
      obtain ⟨d, resume, hm⟩ := ho.calling x hx (by rw [show x.thread = some i from hi]; nofun)
      exact absurd hm (hc d resume)
    | @entered d resume p hm ht hp hst =>
      cases hi
      obtain ⟨patience, hs⟩ := Pool.Demand.starts hst
      refine ⟨d.phase, ?_, Stage.serves_of_call hm⟩
      rw [hs, Pool.System.phase?_start, if_pos rfl]
    | cameBack => cases hi
  · cases hn <;> cases hi

theorem Reachable.attended (hr : Reachable plan rule o) : o.Attended := by
  have start : (fresh plan).Attended := by
    refine ⟨fun i q hi => ?_, fun x hx => ?_⟩
    · cases hi
    · cases hx
  have both : o.Accounts ∧ o.Attended :=
    hr.keeps ⟨fresh_accounts plan, start⟩
      fun ho _ st hk => ⟨st.accounts hk.1, st.attended ho hk.1 hk.2⟩
  exact both.2

/-- What a method call has come to whose borrow was refused a client. -/
inductive TurnedBack (o : ManagerSystem) (f : Failure) : Stage → Option Nat → Prop where
  | borrowing {t p q i} (hi : o.tracked.Refused i f) : TurnedBack o f (.borrowing t p q) (some i)
  | ended {reply} (hr : reply.fault? = some (.notOpened f)) : TurnedBack o f (.ended reply) none

theorem TurnedBack.mono (st : Step o h o') {stage : Stage} {thread : Option Nat}
    (ht : TurnedBack o f stage thread) (hfit : stage.Fits o.manager) :
    TurnedBack o' f stage thread := by
  cases ht with
  | borrowing hi =>
    obtain ⟨p, hfac⟩ := hfit
    rcases st.tracked hfac with hsc | ⟨q, e, hq, hsc⟩
    · exact .borrowing (by rw [hsc]; exact hi)
    · exact .borrowing (hsc.stays_refused hi)
  | ended hr => exact .ended hr

theorem TurnedBack.advance (st : Step o h o') (ho : o.Orderly plan) {x x' : Caller}
    (hx : x ∈ o.callers) (ht : TurnedBack o f x.stage x.thread) (ha : Advance o o' x x') :
    TurnedBack o' f x'.stage x'.thread := by
  have hfit := ho.fits x hx
  obtain ⟨e, stage, thread, loan⟩ := x
  change TurnedBack o f stage thread at ht
  cases ha with
  | same | handedOver => exact ht.mono st hfit
  | passed hg hc =>
    cases ht with
    | borrowing => exact absurd rfl (hc _ _)
    | ended =>
      generalize o'.manager = m at hg
      cases hg with
      | refused hs | direct hs | borrow hs => cases hs
  | entered hm hth =>
    cases hth
    cases ht
    cases hm
  | cameBack hm hth hfin =>
    cases hth
    cases ht with
    | @borrowing t p q _ hi =>
      -- the borrow is over, so it has said why, and that is what the method call ends in
      cases hm
      rcases hi with hi | hi
      · cases hi.symm.trans hfin
      · cases hi.symm.trans hfin
        cases q <;> exact .ended rfl

/-- A manager in use at which the borrow of a caller was refused a client. -/
structure Refusing (plan : ManagerPlan) (v : Nat) (f : Failure) (o : ManagerSystem) : Prop where
  orderly : o.Orderly plan
  turned : ∃ x, o.callers[v]? = some x ∧ TurnedBack o f x.stage x.thread

variable {v : Nat}

theorem Step.refusing (st : Step o h o') (hr : o.Refusing plan v f) : o'.Refusing plan v f := by
  obtain ⟨x, hx, ht⟩ := hr.turned
  obtain ⟨x', hx', ha⟩ := st.caller hx
  exact ⟨st.orderly hr.orderly, x', hx', ht.advance st hr.orderly (List.mem_of_getElem? hx) ha⟩

theorem Refusing.can_end (hr : o.Refusing plan v f) : o.CanEnd v := by
  obtain ⟨x, hx, ht⟩ := hr.turned
  have hfit := hr.orderly.fits x (List.mem_of_getElem? hx)
  generalize hs : x.stage = stage at ht hfit
  generalize hi : x.thread = thread at ht
  cases ht with
  | @borrowing t p q i hphase =>
    obtain ⟨pool, hp⟩ := Stage.pool_of_fits hfit
    -- at most a turn to give the reserved place back, and a step to leave the pool
    rcases hphase with hphase | hphase
    · obtain ⟨⟨patience, phase⟩, hthread, rfl⟩ := Option.map_eq_some_iff.mp hphase
      exact failing_borrow_can_end hx hs hi hp hthread rfl (f := .notOpened f) rfl
    · exact failed_borrow_can_end hx hs hi hphase
  | ended => exact .of_ended hx ⟨_, hs⟩

/-- A caller whose call of the pool is refused a client was borrowing it. -/
theorem Attended.refusing (hk : o.Attended) (ho : o.Orderly plan)
    (st : Step o (.inside (.refused i f)) o₁) {x : Caller} (hx : o.callers[v]? = some x)
    (hi : x.thread = some i) : o₁.Refusing plan v f := by
  refine ⟨st.orderly ho, ?_⟩
  cases st with
  | inside hp hh hc st =>
    obtain ⟨hopening, hrefused⟩ := st.refuses
    obtain ⟨q, hq, hs⟩ := hk.serves x (List.mem_of_getElem? hx) i hi
    cases hopening.symm.trans hq
    obtain ⟨t, p, q, hstage⟩ := Stage.eq_of_borrows hs
    refine ⟨x, hx, ?_⟩
    rw [hstage, hi]
    exact .borrowing hrefused

/-- In whatever state a manager is and whatever else is going on, a caller that was refused a client
in a borrow can always end, and ends in nothing but a fault that surfaces the refusal. -/
theorem refused_borrow_surfaces (hr : Reachable plan rule o)
    (st : Step o (.inside (.refused i f)) o₁) (hl : Leads rule' o₁ o') {x : Caller}
    (hx : o.callers[v]? = some x) (hi : x.thread = some i) :
    o'.CanEnd v ∧ ∀ x' reply, o'.callers[v]? = some x' → x'.stage = .ended reply →
      ∃ e, reply.fault? = some e ∧ e.Surfaces f := by
  have hrefusing : o'.Refusing plan v f :=
    hl.keeps (hr.attended.refusing hr.orderly st hx hi) fun _ st => st.refusing
  refine ⟨hrefusing.can_end, fun x' reply hx' hs => ?_⟩
  obtain ⟨y, hy, ht⟩ := hrefusing.turned
  cases hy.symm.trans hx'
  rw [hs] at ht
  generalize x'.thread = thread at ht
  cases ht with
  | ended he => exact ⟨_, he, Fault.notOpened_surfaces f⟩

/-- Someone waits for every borrow that is refused a client. -/
theorem refused_borrow_attended (hr : Reachable plan rule o)
    (st : Step o (.inside (.refused i f)) o₁) : ∃ x ∈ o.callers, x.thread = some i := by
  cases st with
  | inside hp hh hc st =>
    rcases hr.attended.running i _ st.refuses.1 with ⟨r, hq⟩ | hx
    · cases hq
    · exact hx

/-- A refusal to open a client surfaces as a failed acquisition that it caused, in an initialization
if and only if the client is opened for a pool, or for a cluster whose client reports the failure;
any other initialization ends in the failure itself. The clients that are counted here are all that
an initialization needs. In a borrow later on the refusal always surfaces. -/
theorem refusals_surface_iff (plan : ManagerPlan) :
    (∀ {s : Site} {hosts : String} {password : Value} {options : Options}
        {request : ClientRequest}, s.manager.plan = plan → s.manager.closed = false →
      s.manager.facade = none → Manager.Plans plan hosts password options request →
      (s.world.remote.refusalWithin request plan.openings = none →
        ((Manager.init hosts password options).run s).1 = plan.outcome) ∧
      ∀ f, s.world.remote.refusalWithin request plan.openings = some f →
        ∃ e, ((Manager.init hosts password options).run s).1 = .error e ∧
          (e.Surfaces f ↔ plan.Wraps f) ∧ (¬plan.Wraps f → e = .passedOn f)) ∧
    ∀ {rule : Rule} {o o₁ : ManagerSystem} {i : Nat} {f : Failure},
      Reachable plan rule o → Step o (.inside (.refused i f)) o₁ →
      (∃ x ∈ o.callers, x.thread = some i) ∧
      ∀ v x, o.callers[v]? = some x → x.thread = some i → ∀ o', Leads Unruled o₁ o' →
        o'.CanEnd v ∧ ∀ x' reply, o'.callers[v]? = some x' → x'.stage = .ended reply →
          ∃ e, reply.fault? = some e ∧ e.Surfaces f := by
  constructor
  · intro s hosts password options request hplan hc hn hw
    subst hplan
    obtain ⟨as, hr⟩ := ClientRequest.resolve_of_planned hw
    have h := Manager.init_opens hc hn hr hw
    constructor
    · intro hf
      rw [hf] at h
      exact h
    · intro f hf
      rw [hf] at h
      exact ⟨_, h, ManagerPlan.refused_surfaces_iff as, fun hw => ManagerPlan.refused_raw hw as⟩
  · intro rule o o₁ i f hr st
    refine ⟨refused_borrow_attended hr st, fun v x hx hi o' hl => ?_⟩
    exact refused_borrow_surfaces hr st hl hx hi

/-- The server is down. -/
def down : Failure := ⟨.refused, "Connection refused"⟩

/-- A manager that was just made, in a world in which no client can be opened. -/
def beforeDown (plan : ManagerPlan) : Site := ⟨{ plan }, { remote := { refusal := some down } }⟩

/-- Whoever initializes a manager in that world and asks for a client is told of the refusal. -/
theorem init_beforeDown (plan : ManagerPlan) (hn : plan.openings = 1) :
    ((Manager.init "h:1" .none .absent).run (beforeDown plan)).1 =
      .error (plan.refused [⟨"h", 1⟩] down) := by
  obtain ⟨request, hw⟩ := Manager.plans_bare plan
  have h :=
    @Manager.init_opens "h:1" .none .absent request [⟨"h", 1⟩] (beforeDown plan) rfl rfl rfl hw
  rw [show (beforeDown plan).manager.plan = plan from rfl, hn] at h
  exact h

/-- The same initialization tells of the refusal with a pool, and passes it on without one, be it
for a single node or for a cluster. -/
theorem refusal_passed_on :
    (∃ e, ((Manager.init "h:1" .none .absent).run
        (beforeDown { pooling := true, limits := { minIdle := 1 } })).1 = .error e ∧
      e.Surfaces down) ∧
    ∀ topology, ∃ e, ((Manager.init "h:1" .none .absent).run (beforeDown { topology })).1 =
      .error e ∧ ¬e.Surfaces down := by
  refine ⟨⟨_, init_beforeDown _ rfl, ManagerPlan.refused_surfaces (.inl rfl) _⟩, fun topology => ?_⟩
  refine ⟨_, init_beforeDown { topology } rfl, ?_⟩
  rw [ManagerPlan.refused_surfaces_iff]
  rintro (h | ⟨-, h⟩)
  · cases h
  · exact absurd h (by decide)

/-- The second of two clients that an initialization opens for a pool is refused, and so is one that
a borrow asks for later on while another one waits. -/
theorem refusals_surface_iff_of_second_opening :
    (∃ e, ((Manager.init "h:1" .none .absent).run
        ⟨{ plan := { pooling := true, limits := { minIdle := 2 } } },
          { remote := { upcoming := [none, some down] } }⟩).1 = .error e ∧ e.Surfaces down) ∧
    ∃ o o₁ o' x reply, Reachable { pooling := true, limits := { maxTotal := 1 } } Unruled o ∧
      Step o (.inside (.refused 0 down)) o₁ ∧ Leads Unruled o₁ o' ∧ o'.callers[1]? = some x ∧
      x.stage = .ended reply ∧ ∃ e, reply.fault? = some e ∧ e.Surfaces down := by
  constructor
  · let s : Site := ⟨{ plan := { pooling := true, limits := { minIdle := 2 } } },
      { remote := { upcoming := [none, some down] } }⟩
    obtain ⟨request, hw⟩ := Manager.plans_bare s.manager.plan
    obtain ⟨hinit, -⟩ := refusals_surface_iff s.manager.plan
    obtain ⟨-, hrefused⟩ := @hinit s _ _ _ _ rfl rfl rfl hw
    obtain ⟨e, he, hs, -⟩ := hrefused down rfl
    exact ⟨e, he, hs.mpr (.inl rfl)⟩
  · obtain ⟨o, ho, hp⟩ := reachable_of_play { pooling := true, limits := { maxTotal := 1 } } Unruled
      [.arrive (.init "h:1" .none .absent), .establish 0 {}, .arrive .handle, .look 1, .enter 1,
        .inside (.turn 0), .arrive .handle, .look 2, .enter 2, .inside (.turn 1)]
      (fun o => (o.callers[1]?.any fun x => x.thread == some 0) &&
        (o.after? (.inside (.refused 0 down))).any fun o₁ =>
          (o₁.play Unruled [.inside (.turn 0), .inside (.turn 1), .back 1]).any fun o' =>
            o'.callers[1]?.any fun x => x.stage.isEnded)
      (by decide +kernel)
    obtain ⟨hx, hp⟩ := Bool.and_eq_true_iff.mp hp
    obtain ⟨x, hx, hi⟩ := (Option.any_eq_true _ _).mp hx
    obtain ⟨o₁, ha, hp⟩ := (Option.any_eq_true _ _).mp hp
    obtain ⟨o', hl, hp⟩ := (Option.any_eq_true _ _).mp hp
    obtain ⟨x', hx', hended⟩ := (Option.any_eq_true _ _).mp hp
    obtain ⟨reply, hs⟩ := Caller.isEnded_iff.mp hended
    have st := step_of_after ha
    have hl := leads_of_play hl
    obtain ⟨-, hborrow⟩ := refusals_surface_iff { pooling := true, limits := { maxTotal := 1 } }
    obtain ⟨-, hends⟩ := (hborrow ho st).2 1 x hx (beq_iff_eq.mp hi) o' hl
    exact ⟨o, o₁, o', x', reply, ho, st, hl, hx', hs, hends x' reply hx' hs⟩

end ManagerSystem
end RedisGateway
