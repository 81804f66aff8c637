import RedisGateway.Proofs.Pool.TrackedSystem

/-!
Steps that can be computed: what a happening makes of a tracked system, and scripts of happenings
under a rule that can be decided. A script that plays to its end leads where the step relation
leads.
-/

namespace RedisGateway.Pool

/-- Surroundings that supply connections in the order of their numbers and never fail. -/
def Surroundings.counting : Surroundings Nat where
  answer
    | .supply, n => (.ok n, n + 1)
    | .ping _, n => (.ok (.flag true), n)
    | .close _, n => (.ok (), n)
  report _ n := n

/-- A pool of one connection, which is checked whenever it is returned. -/
def Policy.single : Policy where
  name := "single"
  limits := { maxTotal := 1, maxIdle := 1, minIdle := 1, testOnReturn := true }

namespace TrackedSystem

/-- The pool of one connection when it was just opened. -/
def single : TrackedSystem where
  system := { core := { idle := [0] } }
  opened := [0]

theorem single_justOpened : JustOpened .single single :=
  ⟨Nat, .counting, 0, 1, { idle := [0] },
    openPool_of_isShowable (Limits.isShowable_of_lt (by decide)) rfl, by decide, rfl⟩

instance (s : TrackedSystem) : ∀ h, Decidable (Novel s h)
  | .supplied _ c => inferInstanceAs (Decidable (c ∉ s.opened ∧ c ∉ s.strangers))
  | .borrow _ | .giveBack _ | .offer _ | .close | .turn _ | .refused .. | .pinged .. | .closed ..
  | .lapse _ => inferInstanceAs (Decidable True)

instance (s : TrackedSystem) : ∀ h, Decidable (Honest s h)
  | .offer c => inferInstanceAs (Decidable (c ∉ s.opened))
  | .borrow _ | .giveBack _ | .close | .turn _ | .supplied .. | .refused .. | .pinged ..
  | .closed .. | .lapse _ => inferInstanceAs (Decidable True)

/-- What a happening makes of a tracked system, if it can happen there. -/
def after? (policy : Policy) (s : TrackedSystem) : Happening → Option TrackedSystem
  | .borrow timeout => match policy.limits.patience timeout with
    | .ok p => some (s.start p (.seeking false false))
    | .error _ => none
  | .giveBack loan =>
    if loan ∈ s.lent then some ((s.start .endless (.accepting loan.2)).withoutLoan loan) else none
  | .offer c => some ((s.start .endless (.accepting c)).withStranger c)
  | .close => some (s.start .endless .shutting)
  | .turn i => match s.move? policy i with
    | some (.hold turn) => some (s.hold i turn)
    | _ => none
  | .supplied i c => match s.move? policy i with
    | some (.ask .supply resume) => some ((s.goOn i (resume (.ok c)).1).withOpened c)
    | _ => none
  | .refused i f => match s.move? policy i with
    | some (.ask .supply resume) => some (s.goOn i (resume (.error f)).1)
    | _ => none
  | .pinged i a => match s.move? policy i with
    | some (.ask (.ping _) resume) => some (s.goOn i (resume a).1)
    | _ => none
  | .closed i a => match s.move? policy i with
    | some (.ask (.close c) resume) => some ((s.goOn i (resume a).1).withClosed c)
    | _ => none
  | .lapse i => match s.system.threads[i]? with
    | some ⟨.upTo _, _⟩ => some { s with system := s.system.expire i }
    | _ => none

theorem step_of_after {policy : Policy} {s t : TrackedSystem} {h : Happening}
    (ha : s.after? policy h = some t) : Step policy s h t := by
  cases h with
  | borrow timeout =>
    simp only [after?] at ha
    split at ha
    · cases ha
      exact .borrow ‹_›
    · cases ha
  | giveBack loan =>
    simp only [after?, Option.ite_none_right_eq_some, Option.some.injEq] at ha
    obtain ⟨hl, rfl⟩ := ha
    exact .giveBack hl
  | offer c =>
    cases ha
    exact .offer
  | close =>
    cases ha
    exact .close
  | turn i =>
    simp only [after?] at ha
    split at ha
    · cases ha
      exact .turn ‹_›
    · cases ha
  | supplied i c =>
    simp only [after?] at ha
    split at ha
    · cases ha
      exact .supplied ‹_›
    · cases ha
  | refused i f =>
    simp only [after?] at ha
    split at ha
    · cases ha
      exact .refused ‹_›
    · cases ha
  | pinged i a =>
    simp only [after?] at ha
    split at ha
    · cases ha
      exact .pinged ‹_›
    · cases ha
  | closed i a =>
    simp only [after?] at ha
    split at ha
    · cases ha
      exact .closed ‹_›
    · cases ha
  | lapse i =>
    simp only [after?] at ha
    split at ha
    · cases ha
      exact .lapse ‹_› rfl
    · cases ha

/-- Plays a script under a rule. -/
def play (policy : Policy) (rule : Rule) [∀ s h, Decidable (rule s h)] (s : TrackedSystem) :
    List Happening → Option TrackedSystem
  | [] => some s
  | h :: rest =>
    if rule s h then (s.after? policy h).bind fun t => play policy rule t rest else none

theorem Leads.trans {policy : Policy} {rule : Rule} {s t u : TrackedSystem}
    (h : Leads policy rule s t) (h' : Leads policy rule t u) : Leads policy rule s u := by
  induction h' with
  | refl => exact h
  | step _ hr st ih => exact .step ih hr st

theorem leads_of_play {policy : Policy} {rule : Rule} [∀ s h, Decidable (rule s h)]
    {s t : TrackedSystem} {script : List Happening} (h : s.play policy rule script = some t) :
    Leads policy rule s t := by
  induction script generalizing s with
  | nil =>
    cases h
    exact .refl
  | cons happening rest ih =>
    simp only [play] at h
    split at h
    · rename_i hr
      obtain ⟨u, hu, h⟩ := Option.bind_eq_some_iff.mp h
      exact (Leads.step .refl hr (step_of_after hu)).trans (ih h)
    · cases h

/-- A script that plays to its end on a pool that was just opened reaches a state, of which anything
can be said that is computed there. -/
theorem reachable_of_play {policy : Policy} (rule : Rule) [∀ s h, Decidable (rule s h)]
    {s : TrackedSystem} (hs : JustOpened policy s) (script : List Happening)
    (p : TrackedSystem → Bool) (h : (s.play policy rule script).any p = true) :
    ∃ t, Reachable policy rule t ∧ p t = true := by
  obtain ⟨t, ht, hp⟩ := (Option.any_eq_true _ _).mp h
  exact ⟨t, ⟨s, hs, leads_of_play ht⟩, hp⟩

end TrackedSystem
end RedisGateway.Pool
