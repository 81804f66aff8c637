import RedisGateway.Proofs.Manager.ManagerSystem

/-!
The closing of a manager. It marks the manager as closed at once and closes the pool in its own
time; what is closed stays so.
-/

namespace RedisGateway

/-- A caller whose method call is over. -/
def Caller.Ended (x : Caller) : Prop := ∃ reply, x.stage = .ended reply

def Stage.isEnded : Stage → Bool
  | .ended _ => true
  | _ => false

theorem Caller.isEnded_iff {x : Caller} : x.stage.isEnded = true ↔ x.Ended := by
  constructor
  · intro h
    unfold Stage.isEnded at h
    split at h
    · exact ⟨_, ‹_›⟩
    · cases h
  · rintro ⟨reply, hs⟩
    rw [hs]
    rfl

instance (x : Caller) : Decidable x.Ended := decidable_of_iff _ Caller.isEnded_iff

instance : ∀ e : MethodCall, Decidable (e = .close)
  | .close => isTrue rfl
  | .init .. | .handle | .command _ | .release _ | .closePool => isFalse nofun

namespace ManagerSystem

variable {plan : ManagerPlan} {o o' : ManagerSystem} {h : Happening}

/-- The manager is closed, and its pool too if it has one. -/
structure Shut (o : ManagerSystem) : Prop where
  closed : o.manager.closed = true
  pool : ∀ p, o.manager.pool? = some p → o.tracked.core.closed = true

/-- A closed manager is not initialized any more. -/
theorem Step.facade_of_closed (st : Step o h o') (hc : o.manager.closed = true) :
    o'.manager.facade = o.manager.facade := by
  rcases st.manager with hm | ⟨x, hx, next, hg, -⟩
  · rw [hm]
  · cases hf : o.manager.facade with
    | some f => exact st.facade hf
    | none =>
      generalize x.stage = stage at hg
      generalize o'.manager = m at hg
      cases hg with
      | init ha =>
        cases ha with
        | failed hm => rw [hm, hf]
        | succeeded ho => cases hc.symm.trans ho
      | _ => exact hf

theorem Step.core_closed (st : Step o h o') {p : ConnectionPool} (hp : o.manager.pool? = some p)
    (hc : o.tracked.core.closed = true) : o'.tracked.core.closed = true := by
  obtain ⟨f, hf, -⟩ := Option.bind_eq_some_iff.mp hp
  rcases st.tracked hf with hs | ⟨q, e, -, hs⟩
  · rw [hs, hc]
  · exact Pool.TrackedSystem.closed_step hs hc

theorem Step.shut (st : Step o h o') (hs : o.Shut) : o'.Shut := by
  have hf := st.facade_of_closed hs.closed
  refine ⟨st.closed hs.closed, fun p hp => ?_⟩
  rw [Manager.pool?, hf] at hp
  exact st.core_closed hp (hs.pool p hp)

/-- A closing of the manager has marked it as closed, or is yet to start; and until it has closed
the pool it is on its way to do so. -/
structure Closing (o : ManagerSystem) : Prop where
  begun : ∀ x ∈ o.callers, x.method = .close → x.stage = .starting .close ∨
    o.manager.closed = true
  shutting : ∀ p, o.manager.pool? = some p → o.manager.closed = true →
    o.tracked.core.closed = true ∨ ∃ x ∈ o.callers, x.method = .close ∧
      x.stage = .shutting true ∧
      ∀ i, x.thread = some i → o.tracked.system.phase? i = some .shutting

theorem Step.begun (st : Step o h o') (hc : o.Closing) : ∀ x ∈ o'.callers, x.method = .close →
    x.stage = .starting .close ∨ o'.manager.closed = true := by
  refine @Step.stages _ _ _ st (fun e stage => e = .close → stage = .starting .close ∨
    o.manager.closed = true) _ hc.begun (fun hk he => (hk he).imp_right st.closed)
    (fun e he => .inl (congrArg _ he)) fun {e stage next} hg hk he => ?_
  rcases hk he with rfl | hc
  · generalize o'.manager = m at hg
    cases hg with
    | closedBefore hc => exact .inr hc
    | closeUnused | closePooled | closeDirect => exact .inr rfl
    | refused hs | direct hs | borrow hs => cases hs
  · exact .inr (st.closed hc)

/-- A closing that is on its way to close the pool gets there, or is still on its way. -/
theorem Step.still_shutting (st : Step o h o') {p : ConnectionPool}
    (hp : o.manager.pool? = some p) {x : Caller} (hx : x ∈ o.callers) (he : x.method = .close)
    (hs : x.stage = .shutting true)
    (hi : ∀ i, x.thread = some i → o.tracked.system.phase? i = some .shutting) :
    o'.tracked.core.closed = true ∨ ∃ x ∈ o'.callers, x.method = .close ∧
      x.stage = .shutting true ∧
      ∀ i, x.thread = some i → o'.tracked.system.phase? i = some .shutting := by
  obtain ⟨f, hf, -⟩ := Option.bind_eq_some_iff.mp hp
  -- either the step is one of the caller itself, or the pool may have gone on without it
  obtain ⟨v, hv⟩ := List.mem_iff_getElem?.mp hx
  obtain ⟨x', hx', ha⟩ := st.caller hv
  have hx' := List.mem_of_getElem? hx'
  cases ha with
  | same =>
    cases hth : x.thread with
    | none => exact .inr ⟨x, hx', he, hs, fun i h => by cases hth.symm.trans h⟩
    | some i =>
      have hi := hi i hth
      have : o'.tracked.core.closed = true ∨ o'.tracked.system.phase? i = some .shutting := by
        rcases st.tracked hf with hsc | ⟨q, e, -, hsc⟩
        · rw [hsc]
          exact .inr hi
        · exact hsc.shutting hi
      refine this.imp_right fun h => ⟨x, hx', he, hs, fun j hj => ?_⟩
      cases hth.symm.trans hj
      exact h
  | handedOver hh => cases hs.symm.trans hh
  | passed hg hc =>
    rw [hs] at hc
    exact absurd rfl (hc _ _)
  | @entered d resume q hm ht hq hst =>
    rw [hs] at hm
    cases hm
    refine .inr ⟨_, hx', he, hs, fun i h => ?_⟩
    cases h
    generalize o'.tracked = tracked at hst
    cases hst
    exact (Pool.System.phase?_start ..).trans (if_pos rfl)
  | cameBack hm ht hfin =>
    cases (hi _ ht).symm.trans hfin

theorem Step.closing (st : Step o h o') (ho : o.Orderly plan) (hc : o.Closing) : o'.Closing := by
  refine ⟨st.begun hc, fun p hp hcl => ?_⟩
  by_cases hcl₀ : o.manager.closed = true
  · have hp₀ : o.manager.pool? = some p := by
      rw [Manager.pool?, ← st.facade_of_closed hcl₀]
      exact hp
    rcases hc.shutting p hp₀ hcl₀ with h | ⟨x, hx, he, hs, hi⟩
    · exact .inl (st.core_closed hp₀ h)
    · exact st.still_shutting hp₀ hx he hs hi
  · -- the step closes the manager, so it is the start of a closing
    rcases st.manager with hm | ⟨x, hx, next, hg, hx'⟩
    · rw [hm] at hcl
      exact absurd hcl hcl₀
    · have hb := ho.belongs x hx
      have hn := ho.calling x hx
      generalize hm : o'.manager = m at hg hp hcl
      generalize hst : x.stage = stage at hg hb hn
      cases hg with
      | closePooled =>
        refine .inr ⟨_, hx', ?_, rfl, fun i hi => ?_⟩
        · generalize x.method = e at hb
          cases hb
          rfl
        · obtain ⟨d, resume, h⟩ := hn (by rw [show x.thread = _ from hi]; simp)
          cases h
      | init ha =>
        cases ha with
        | failed hm =>
          rw [hm] at hcl
          exact absurd hcl hcl₀
        | succeeded hopen hf hm =>
          rw [hm] at hcl
          exact absurd hcl hcl₀
      | closeUnused hopen hf =>
        rw [Manager.pool?, hf] at hp
        cases hp
      | closeDirect hopen hf =>
        rw [Manager.pool?, hf] at hp
        cases hp
      | _ => exact absurd hcl hcl₀

theorem Reachable.closing {rule : Rule} (hr : Reachable plan rule o) : o.Closing := by
  refine hr.keeps ⟨fun x hx => ?_, fun p hp => ?_⟩ fun ho _ st => st.closing ho
  · cases hx
  · cases hp

/-- Once a closing has returned and none is amid closing the pool, the manager is closed and so is
its pool. -/
theorem Closing.shut (hc : o.Closing) (he : ∃ x ∈ o.callers, x.method = .close ∧ x.Ended)
    (hn : ∀ x ∈ o.callers, x.stage ≠ .shutting true) : o.Shut := by
  obtain ⟨x, hx, hxe, reply, hs⟩ := he
  have hcl : o.manager.closed = true := by
    rcases hc.begun x hx hxe with h | h
    · cases hs.symm.trans h
    · exact h
  refine ⟨hcl, fun p hp => ?_⟩
  rcases hc.shutting p hp hcl with h | ⟨y, hy, -, hys, -⟩
  · exact h
  · exact absurd hys (hn y hy)

end ManagerSystem
end RedisGateway
