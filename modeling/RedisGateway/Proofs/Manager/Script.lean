import RedisGateway.Proofs.Manager.ManagerSystem
import RedisGateway.Proofs.Pool.Script

/-!
Steps at a manager that can be computed, and scripts of them. A script that plays to its end leads
where the step relation leads.
-/

namespace RedisGateway.ManagerSystem

/-- A client that is supplied gets the next number. -/
def numbers (o : ManagerSystem) : Pool.Happening → Bool
  | .supplied _ c => c == o.count
  | _ => true

/-- What a happening makes of a manager system, if it can happen there. An initialization is
computed as long as nothing was asked of the remote side. -/
def after? (o : ManagerSystem) : Happening → Option ManagerSystem
  | .arrive e => some (o.welcome { method := e })
  | .handOver n => (o.callers[n]?).bind fun x => match x.stage with
    | .ended (.handle (.ok h)) => some ((o.put n { x with loan := none }).welcome
        { method := .release (some h), loan := x.loan })
    | _ => none
  | .look v => (o.callers[v]?).bind fun x => match x.stage.move with
    | .look f => some
        { o.put v { x with stage := (f o.manager).2.1 } with manager := (f o.manager).1 }
    | _ => none
  | .establish v w => (o.callers[v]?).bind fun x => match x.stage.move with
    | .establish hosts password options =>
      if w.remote.opened = o.count ∧ w.remote.events.isEmpty = true ∧ o.events.isEmpty = true then
        let (r, s) := (Manager.init hosts password options).run ⟨o.manager, w⟩
        some (o.established v x r s)
      else none
    | _ => none
  | .enter v => (o.callers[v]?).bind fun x => match x.stage.move with
    | .call d _ => if x.thread = none then o.manager.pool?.bind fun p =>
        (o.tracked.after? p.policy (d.happening o.tracked x.loan)).map fun tracked =>
          { o.put v (x.calls o.tracked.system.threads.length d) with tracked }
      else none
    | _ => none
  | .inside h =>
    if h.thread?.isSome = true ∧ o.numbers h = true then o.manager.pool?.bind fun p =>
      (o.tracked.after? p.policy h).map fun tracked => o.progressed p h tracked
    else none
  | .back v => (o.callers[v]?).bind fun x => match x.stage.move, x.thread with
    | .call _ resume, some i => match o.tracked.system.phase? i with
      | some (.finished r) => some (o.put v (x.resumes (resume r).1 r))
      | _ => none
    | _, _ => none
  | .sent v outcome => (o.callers[v]?).bind fun x => match x.stage.move with
    | .send h order resume => some
        ((o.put v { x with stage := (resume outcome).1 }).tell [.called h.client order.call])
    | _ => none
  | .hungUp v answer => (o.callers[v]?).bind fun x => match x.stage.move with
    | .hangUp c resume => some ((o.put v { x with stage := (resume answer).1 }).tell [.closed c])
    | _ => none

variable {o o' : ManagerSystem}

theorem step_of_after {h : Happening} (ha : o.after? h = some o') : Step o h o' := by
  cases h with
  | arrive e =>
    cases ha
    exact .arrive
  | handOver n =>
    obtain ⟨x, hx, ha⟩ := Option.bind_eq_some_iff.mp ha
    split at ha
    · rename_i hs
      cases ha
      exact .handOver hx hs
    · cases ha
  | look v =>
    obtain ⟨x, hx, ha⟩ := Option.bind_eq_some_iff.mp ha
    split at ha
    · rename_i hm
      cases ha
      exact .look hx hm
    · cases ha
  | establish v w =>
    obtain ⟨x, hx, ha⟩ := Option.bind_eq_some_iff.mp ha
    split at ha
    · rename_i hm
      split at ha
      · rename_i hw
        cases ha
        refine .establish hx hm hw.1 ?_ rfl
        rw [List.isEmpty_iff.mp hw.2.1, List.isEmpty_iff.mp hw.2.2]
      · cases ha
    · cases ha
  | enter v =>
    obtain ⟨x, hx, ha⟩ := Option.bind_eq_some_iff.mp ha
    split at ha
    · rename_i hm
      split at ha
      · rename_i ht
        obtain ⟨p, hp, ha⟩ := Option.bind_eq_some_iff.mp ha
        obtain ⟨tracked, hs, rfl⟩ := Option.map_eq_some_iff.mp ha
        exact .enter hx hm ht hp (Pool.TrackedSystem.step_of_after hs)
      · cases ha
    · cases ha
  | inside h =>
    simp only [after?] at ha
    split at ha
    · rename_i hh
      obtain ⟨p, hp, ha⟩ := Option.bind_eq_some_iff.mp ha
      obtain ⟨tracked, hs, rfl⟩ := Option.map_eq_some_iff.mp ha
      refine .inside hp hh.1 (fun i c hc => ?_) (Pool.TrackedSystem.step_of_after hs)
      subst hc
      exact beq_iff_eq.mp hh.2
    · cases ha
  | back v =>
    obtain ⟨x, hx, ha⟩ := Option.bind_eq_some_iff.mp ha
    split at ha
    · rename_i hm ht
      split at ha
      · rename_i hf
        cases ha
        exact .back hx hm ht hf
      · cases ha
    · cases ha
  | sent v outcome =>
    obtain ⟨x, hx, ha⟩ := Option.bind_eq_some_iff.mp ha
    split at ha
    · rename_i hm
      cases ha
      exact .sent hx hm
    · cases ha
  | hungUp v answer =>
    obtain ⟨x, hx, ha⟩ := Option.bind_eq_some_iff.mp ha
    split at ha
    · rename_i hm
      cases ha
      exact .hungUp hx hm
    · cases ha

/-- Plays a script under a rule. -/
def play (rule : Rule) [∀ o h, Decidable (rule o h)] (o : ManagerSystem) :
    List Happening → Option ManagerSystem
  | [] => some o
  | h :: rest => if rule o h then (o.after? h).bind fun o => play rule o rest else none

theorem leads_of_play {rule : Rule} [∀ o h, Decidable (rule o h)] {script : List Happening}
    (hp : o.play rule script = some o') : Leads rule o o' := by
  induction script generalizing o with
  | nil =>
    cases hp
    exact .refl
  | cons h rest ih =>
    simp only [play] at hp
    split at hp
    · rename_i hr
      obtain ⟨o₁, ha, hp⟩ := Option.bind_eq_some_iff.mp hp
      exact .head hr (step_of_after ha) (ih hp)
    · cases hp

/-- A script that plays to its end at a manager that was just made reaches a manager system, of
which anything can be said that is computed there. -/
theorem reachable_of_play (plan : ManagerPlan) (rule : Rule) [∀ o h, Decidable (rule o h)]
    (script : List Happening) (p : ManagerSystem → Bool)
    (h : ((fresh plan).play rule script).any p = true) :
    ∃ o, Reachable plan rule o ∧ p o = true := by
  obtain ⟨o, ho, hp⟩ := (Option.any_eq_true _ _).mp h
  exact ⟨o, leads_of_play ho, hp⟩

instance (o : ManagerSystem) (h : Happening) : Decidable (Unruled o h) :=
  inferInstanceAs (Decidable True)

end RedisGateway.ManagerSystem
