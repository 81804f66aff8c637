import RedisGateway.Proofs.Manager.Attempts
import RedisGateway.Proofs.Manager.Refusals
import RedisGateway.Proofs.Pool.Opening

/-!
Initializations that fail. The manager is as it was, and what was opened is closed again unless the
limits of the pool cannot be reported, so nobody can tell later that there were such attempts, but
for the numbers of clients.
-/

namespace RedisGateway

open Event (openedIn closedIn)

namespace Manager

/-- The manager has been through initializations, all of which failed. What surrounds it may change
between them. -/
inductive FailedAttempts : Site → Site → Prop
  | none (s) : FailedAttempts s s
  | meanwhile {s t} (h : FailedAttempts s t) (world : World) : FailedAttempts s { t with world }
  | more {s t u hosts password options f} (h : FailedAttempts s t)
      (hi : (init hosts password options).run t = (.error f, u)) : FailedAttempts s u

theorem FailedAttempts.manager {s t : Site} (h : FailedAttempts s t) : t.manager = s.manager := by
  induction h with
  | none => rfl
  | meanwhile _ _ ih => exact ih
  | more _ hi ih => exact (init_fails hi).1.trans ih

/-- A manager that was just made, in a world. -/
def made (plan : ManagerPlan) (w : World) : Site := ⟨(create plan w).1, (create plan w).2⟩

/-- Nothing is refused by a new remote side. -/
theorem refusalWithin_new (request : ClientRequest) (n : Nat) {r : Remote} (hr : r.refusal = none)
    (hu : r.upcoming = []) : r.refusalWithin request n = none := by
  induction n generalizing r with
  | zero => rfl
  | succ n ih =>
    obtain ⟨refusal, upcoming, opened, scripts, replies, events⟩ := r
    cases hr
    cases hu
    exact ih rfl rfl

/-- A pool that cannot report its limits leaves its first clients open. -/
theorem init_leaves_client_open {plan : ManagerPlan} (h : ¬plan.RollsBack) :
    ∃ w news, (init "h:1" .none .absent).run ⟨{ plan }, {}⟩ =
        (.error .integerTooLong, ⟨{ plan }, w⟩) ∧
      ({} : Remote).Becomes news w.remote ∧ closedIn news = [] ∧ openedIn news ≠ [] := by
  obtain ⟨hk, h⟩ := Classical.not_imp.mp h
  obtain ⟨hmin, hl⟩ := not_or.mp h
  obtain ⟨request, hw⟩ := plans_bare plan
  obtain ⟨w, hr, news, hb, hclosed, hopened⟩ :=
    @init_leaves_open "h:1" .none .absent request ⟨{ plan }, {}⟩ rfl rfl hk
      (Bool.eq_false_iff.mpr hl) hw (refusalWithin_new _ _ rfl rfl)
  refine ⟨w, news, hr, hb, hclosed, fun hnone => ?_⟩
  rw [hnone] at hopened
  simp only [List.length_nil] at hopened
  omega

/-- Failed initializations are invisible, exactly where the plan sees to it that what they open is
closed again. None of them changes the manager, and each closes every client that it opened, once,
if and only if there is no pool, or it opens no client in advance, or it can report its limits. A
manager that went through any number of them, but was neither initialized nor closed, gives in any
case for all actions the replies, the events and the accounts that a new manager gives, with clients
numbered further on. -/
theorem failed_init_invisible_iff (plan : ManagerPlan) :
    (∀ {s s' : Site} {hosts : String} {password : Value} {options : Options} {f : Fault},
      s.manager.plan = plan → (init hosts password options).run s = (.error f, s') →
        s'.manager = s.manager) ∧
    ((∀ {s s' : Site} {hosts : String} {password : Value} {options : Options} {f : Fault},
      s.manager.plan = plan → (init hosts password options).run s = (.error f, s') →
        ∃ news, s.world.remote.Becomes news s'.world.remote ∧
          ∀ c, (closedIn news).count c = (openedIn news).count c) ↔
      (plan.pooling = true → plan.limits.minIdle ≤ 0 ∨ plan.limits.isShowable = true)) ∧
    ∀ {s t : Site}, s.manager.plan = plan → FailedAttempts s t → s.manager.facade = none →
      s.manager.closed = false →
      ∀ {k : Nat} {w : World}, w.remote.AnswersAs k t.world.remote → ∀ actions : List Action,
        let fresh : HandleTable := { site := made plan w }
        let tried : HandleTable := { site := t }
        tried.replies (actions.map (Action.moved k)) = (fresh.replies actions).map (Reply.moved k) ∧
        (∃ news, (actions.foldl HandleTable.after fresh).site.world.remote.events =
            news ++ w.remote.events ∧
          ((actions.map (Action.moved k)).foldl HandleTable.after tried).site.world.remote.events =
            news.map (Event.moved k) ++ t.world.remote.events) ∧
        ((actions.map (Action.moved k)).foldl HandleTable.after tried).site.manager.stats =
          (actions.foldl HandleTable.after fresh).site.manager.stats := by
  refine ⟨fun _ h => (init_fails h).1, ⟨fun h => ?_, fun h => ?_⟩, ?_⟩
  · by_contra hback
    obtain ⟨w, news, hr, hb, hclosed, hopened⟩ := init_leaves_client_open hback
    obtain ⟨news', hb', hcount⟩ := h rfl hr
    cases List.append_cancel_right (hb'.events.symm.trans hb.events)
    obtain ⟨c, hc⟩ := List.exists_mem_of_ne_nil _ hopened
    have hpos := List.count_pos_iff.mpr hc
    rw [← hcount c, hclosed] at hpos
    cases hpos
  · intro s s' hosts password options f hplan hr
    obtain ⟨-, news, hb, hcount⟩ := init_fails hr
    exact ⟨news, hb, hcount (hplan ▸ h)⟩
  · intro s t hplan ht hf hc k w hw actions fresh tried
    have hm := ht.manager
    have hd : fresh.Mirrors k w.remote.events t.world.remote.events tried := by
      refine ⟨⟨(congrArg (·.plan) hm).trans hplan, ?_, ?_, ?_⟩, rfl⟩
      · exact (congrArg (·.closed) hm).trans hc
      · exact (congrArg (·.facade) hm).trans hf
      · exact ⟨hw.refusal, hw.upcoming, hw.opened, hw.script, hw.replies, [], rfl, rfl⟩
    obtain ⟨h1, h2⟩ := hd.replies actions
    exact ⟨h1, h2.site.remote.events, stats_mirrors h2.site⟩

/-- A plan for a pool with a limit that is accepted and cannot be reported. -/
def overlongPlan : ManagerPlan := { pooling := true, limits := Pool.overlongLimits }

theorem overlongPlan_not_rollsBack : ¬overlongPlan.RollsBack := by
  intro h
  rcases h rfl with h | h
  · exact absurd h (by decide)
  · cases Pool.overlongLimits_not_isShowable.symm.trans h

/-- The initialization fails although no client is refused, and leaves one open. -/
theorem failed_init_leaves_open : overlongPlan.limits.Valid ∧
    ∃ w news, (init "h:1" .none .absent).run ⟨{ plan := overlongPlan }, {}⟩ =
        (.error .integerTooLong, ⟨{ plan := overlongPlan }, w⟩) ∧
      ({} : Remote).Becomes news w.remote ∧ closedIn news = [] ∧ openedIn news ≠ [] :=
  ⟨Pool.overlongLimits_valid, init_leaves_client_open overlongPlan_not_rollsBack⟩

/-- A manager whose pool is to open two clients, of which only the first can be opened. -/
def halfStocked : Site :=
  ⟨{ plan := { pooling := true, limits := { minIdle := 2 } } },
    { remote := { upcoming := [none, some ⟨.connection, "refused"⟩] } }⟩

/-- One client is opened and closed by a failing initialization; the next one serves a handle. -/
theorem failed_init_invisible_iff_of_halfStocked :
    ∃ t : Site, FailedAttempts halfStocked t ∧ t.manager = halfStocked.manager ∧
      (∃ news, halfStocked.world.remote.Becomes news t.world.remote ∧
        ∀ c, (closedIn news).count c = (openedIn news).count c) ∧
      ({} : Remote).AnswersAs 1 t.world.remote ∧
      let actions : List Action := [.init "h:1" (.text "") .absent, .obtain, .release 0, .close]
      let fresh : HandleTable := { site := made halfStocked.manager.plan {} }
      let tried : HandleTable := { site := t }
      tried.replies (actions.map (Action.moved 1)) = (fresh.replies actions).map (Reply.moved 1) ∧
      (∃ news, (actions.foldl HandleTable.after fresh).site.world.remote.events = news ++ [] ∧
        ((actions.map (Action.moved 1)).foldl HandleTable.after tried).site.world.remote.events =
          news.map (Event.moved 1) ++ t.world.remote.events) ∧
      ((actions.map (Action.moved 1)).foldl HandleTable.after tried).site.manager.stats =
        (actions.foldl HandleTable.after fresh).site.manager.stats := by
  obtain ⟨r, t, hr⟩ : ∃ r t, (init "h:1" (.text "") .absent).run halfStocked = (r, t) := ⟨_, _, rfl⟩
  have hw : r.isOk = false ∧ t.world.remote.refusal = none ∧
      t.world.remote.upcoming.isEmpty = true ∧ t.world.remote.opened = 1 ∧
      t.world.remote.scripts.isEmpty = true ∧ t.world.remote.replies.isEmpty = true := by
    have h1 : r = _ := (congrArg Prod.fst hr).symm
    have h2 : t = _ := (congrArg Prod.snd hr).symm
    rw [h1, h2]
    decide +kernel
  obtain ⟨hr', h1, h2, h3, h4, h5⟩ := hw
  cases r with
  | ok u => cases hr'
  | error f =>
    have ha : ({} : Remote).AnswersAs 1 t.world.remote := by
      refine ⟨h1, List.isEmpty_iff.mp h2, h3, fun c => ?_, List.isEmpty_iff.mp h5⟩
      rw [Remote.script, List.isEmpty_iff.mp h4]
      rfl
    have ht := (FailedAttempts.none halfStocked).more hr
    obtain ⟨hsame, hcloses, hruns⟩ := failed_init_invisible_iff halfStocked.manager.plan
    have hshow := Pool.Limits.isShowable_of_lt (l := halfStocked.manager.plan.limits) (by decide)
    exact ⟨t, ht, hsame rfl hr, hcloses.mpr (fun _ => .inr hshow) rfl hr, ha,
      hruns rfl ht rfl rfl ha _⟩

end Manager
end RedisGateway
