import RedisGateway.Proofs.Manager.ManagerSystem

/-!
The clients of a manager in use. Whatever was opened was closed, or it is left to the pool, or it is
the one client of a manager without a pool.
-/

namespace RedisGateway

open Event (openedIn closedIn openedIn_append closedIn_append)

/-- How often a client is open because the manager has to close it. -/
def Manager.standing (m : Manager) (c : ClientId) : Nat :=
  match m.facade with
  | some ⟨_, .direct d⟩ => if m.closed then 0 else [d].count c
  | _ => 0

/-- The method call is about to close a client that was open for good. -/
def Stage.hangsUp (c : ClientId) : Stage → Bool
  | .hangingUp d => d == c
  | _ => false

theorem Stage.got_hangsUp (c : ClientId) (q : Option Order) (r : Except Fault Handle) :
    (got q r).hangsUp c = false := by
  cases q <;> cases r <;> rfl

/-- A stage whose move is another one closes no client. -/
theorem Stage.hangsUp_eq_false {stage : Stage} {move : Move} (hm : stage.move = move)
    (hn : ∀ d resume, move ≠ .hangUp d resume) (c : ClientId) : stage.hangsUp c = false := by
  cases stage with
  | hangingUp d => exact absurd hm.symm (hn _ _)
  | _ => rfl

/-- What the manager has to close passes to the method call that closes it. -/
theorem Stage.Transition.standing {m m' : Manager} {stage next : Stage}
    (g : Stage.Transition m stage m' next) (hf : m'.facade = m.facade) (c : ClientId) :
    m'.standing c + (if next.hangsUp c then 1 else 0) = m.standing c := by
  cases g with
  | @init _ _ _ w r s ha =>
    cases ha with
    | failed hm =>
      rw [hm]
      rfl
    | succeeded ho hn hm =>
      rw [hm, hn] at hf
      cases hf
  | refused | direct | borrowed =>
    rw [Stage.got_hangsUp]
    rfl
  | closeUnused hc hn => simp [Manager.standing, hn, hangsUp]
  | closePooled hc hp => simp [Manager.standing, hp, hangsUp]
  | closeDirect hc hd => simp [Manager.standing, hd, hc, hangsUp, List.count_singleton]
  | _ => rfl

namespace ManagerSystem

variable {plan : ManagerPlan} {o o' : ManagerSystem} {h : Happening}

/-- How often a client is open outside of the pool. -/
def standing (o : ManagerSystem) (c : ClientId) : Nat :=
  o.manager.standing c + o.callers.countP fun x => x.stage.hangsUp c

/-! ## The news of a pool -/

section
variable {p : ConnectionPool} {s t : Pool.TrackedSystem} {e : Pool.Happening}

theorem newsOf_opened (st : Pool.TrackedSystem.Step p.policy s e t) :
    t.opened = openedIn (newsOf p s e) ++ s.opened := by
  cases st with
  | supplied => rfl
  | pinged hm =>
    simp [newsOf, Pool.TrackedSystem.asked?, hm, openedIn, Event.opened?, Pool.TrackedSystem.goOn]
  | closed hm =>
    simp [newsOf, Pool.TrackedSystem.asked?, hm, openedIn, Event.opened?, Pool.TrackedSystem.goOn,
      Pool.TrackedSystem.withClosed]
  | _ => rfl

theorem newsOf_closed (st : Pool.TrackedSystem.Step p.policy s e t) :
    t.closed = closedIn (newsOf p s e) ++ s.closed := by
  cases st with
  | pinged hm =>
    simp [newsOf, Pool.TrackedSystem.asked?, hm, closedIn, Event.closed?, Pool.TrackedSystem.goOn]
  | closed hm =>
    simp [newsOf, Pool.TrackedSystem.asked?, hm, closedIn, Event.closed?, Pool.TrackedSystem.goOn,
      Pool.TrackedSystem.withClosed]
  | _ => rfl

/-- A pool opens the client with the next number, or none. -/
theorem newsOf_numbers (hc : ∀ i c, e = .supplied i c → c = o.count) :
    openedIn (newsOf p s e) = [o.count] ∨ openedIn (newsOf p s e) = [] := by
  cases e with
  | supplied i c =>
    cases hc i c rfl
    exact .inl rfl
  | pinged | closed =>
    refine .inr ?_
    simp only [newsOf]
    split <;> rfl
  | _ => exact .inr rfl

end

/-! ## The balance -/

/-- What was opened and closed, and what is left to close. -/
structure Accounts (o : ManagerSystem) : Prop where
  /-- Clients are numbered as they are opened, -/
  opened : ∀ c : Nat, (openedIn o.events).count c = if c < o.count then 1 else 0
  /-- those of the pool too, -/
  numbered : ∀ c : Nat, c ∈ o.tracked.opened → c < o.count
  /-- and they are closed, or the pool or the manager has them, if the plan sees to that. -/
  balance : o.manager.plan.RollsBack → ∀ c, (openedIn o.events).count c + o.tracked.closed.count c =
    (closedIn o.events).count c + o.tracked.opened.count c + o.standing c
  /-- Until there is a pool, nothing happened at it. -/
  unopened : o.manager.pool? = none → o.tracked = { system := {}, opened := [] }

/-- A caller goes on by itself, whatever that makes known. -/
theorem Accounts.put (ha : o.Accounts) {v : Nat} {x : Caller} (hv : o.callers[v]? = some x)
    (news : List Event) {m : Manager} {next : Stage} {y : Caller} (hy : y.stage = next)
    (hg : Stage.Transition o.manager x.stage m next) (hf : m.facade = o.manager.facade)
    (hn : openedIn news = [])
    (hc : ∀ c, (closedIn news).count c = if x.stage.hangsUp c then 1 else 0) :
    Accounts { (o.put v y).tell news with manager := m } := by
  refine ⟨fun c => ?_, ha.numbered, fun hback c => ?_, fun hp => ha.unopened ?_⟩
  · show (openedIn (news ++ o.events)).count c = _
    rw [openedIn_append, hn]
    exact ha.opened c
  · -- what the manager no longer has to close, the caller has, and what the caller closed is news
    have h1 := hg.standing hf c
    have h2 := @countP_set_add (fun x => x.stage.hangsUp c) _ _ _ hv y
    simp only [List.countP_cons, List.countP_nil, hy, Nat.zero_add] at h2
    have h3 := ha.balance (hg.plan ▸ hback) c
    have h4 := hc c
    simp only [standing] at h3
    show (openedIn (news ++ o.events)).count c + o.tracked.closed.count c =
      (closedIn (news ++ o.events)).count c + o.tracked.opened.count c +
        (m.standing c + (o.callers.set v y).countP fun x => x.stage.hangsUp c)
    rw [openedIn_append, closedIn_append, List.count_append, List.count_append, hn]
    simp only [List.count_nil]
    omega
  · rw [Manager.pool?, ← hf]
    exact hp

/-- Nothing is opened or closed. -/
theorem Accounts.of_same (ha : o.Accounts) (hm : o'.manager = o.manager) (hn : o'.count = o.count)
    (he : o'.events = o.events) (hs : o'.tracked.opened = o.tracked.opened)
    (hx : o'.tracked.closed = o.tracked.closed)
    (hv : ∀ c, (o'.callers.countP fun x => x.stage.hangsUp c) =
      o.callers.countP fun x => x.stage.hangsUp c)
    (hp : o.manager.pool? = none → o'.tracked = o.tracked) : o'.Accounts := by
  refine ⟨?_, ?_, ?_, ?_⟩
  · rw [he, hn]
    exact ha.opened
  · rw [hs, hn]
    exact ha.numbered
  · intro hback c
    rw [hm] at hback
    rw [he, hs, hx, standing, hm, hv]
    exact ha.balance hback c
  · intro h
    rw [hm] at h
    rw [hp h]
    exact ha.unopened h

/-- Something happens at the pool. -/
theorem Accounts.inside (ha : o.Accounts) {p : ConnectionPool} {e : Pool.Happening}
    {tracked : Pool.TrackedSystem} (hp : o.manager.pool? = some p)
    (hc : ∀ i c, e = .supplied i c → c = o.count)
    (st : Pool.TrackedSystem.Step p.policy o.tracked e tracked) :
    (o.progressed p e tracked).Accounts := by
  have ho := newsOf_opened st
  have hx := newsOf_closed st
  refine ⟨fun c => ?_, fun c h => ?_, fun hback c => ?_, fun hn => ?_⟩
  · show (openedIn (newsOf p o.tracked e ++ o.events)).count c =
      if c < o.count + (openedIn (newsOf p o.tracked e)).length then 1 else 0
    rw [openedIn_append, List.count_append, ha.opened]
    -- either one client was opened, with the number that was next, or none
    rcases newsOf_numbers hc with h | h <;> rw [h]
    · simp only [List.count_singleton, beq_iff_eq, List.length_singleton]
      split <;> split <;> split <;> omega
    · simp
  · show c < o.count + (openedIn (newsOf p o.tracked e)).length
    change c ∈ tracked.opened at h
    rw [ho, List.mem_append] at h
    rcases h with h | h
    · rcases newsOf_numbers hc with hn | hn <;> rw [hn] at h ⊢
      · rw [List.mem_singleton.mp h]
        exact Nat.lt_succ_self _
      · cases h
    · exact Nat.lt_of_lt_of_le (ha.numbered c h) (Nat.le_add_right _ _)
  · have hb := ha.balance hback c
    show (openedIn (newsOf p o.tracked e ++ o.events)).count c + tracked.closed.count c =
      (closedIn (newsOf p o.tracked e ++ o.events)).count c + tracked.opened.count c + o.standing c
    rw [ho, hx, openedIn_append, closedIn_append]
    simp only [List.count_append]
    omega
  · cases hp.symm.trans hn

/-- An initialization has come to its end. -/
theorem Accounts.establish (ha : o.Accounts) {v : Nat} {x : Caller} (hv : o.callers[v]? = some x)
    {w : World} {hosts : String} {password : Value} {options : Options} {r : Except Fault Unit}
    {s : Site} (hm : x.stage.move = .establish hosts password options)
    (hc : w.remote.opened = o.count) (he : w.remote.events = o.events)
    (hi : (Manager.init hosts password options).run ⟨o.manager, w⟩ = (r, s)) :
    (o.established v x r s).Accounts := by
  have hs : ∀ c, x.stage.hangsUp c = false :=
    Stage.hangsUp_eq_false hm fun _ _ h => by cases h
  -- the caller has nothing to close before and after
  have hangs : ∀ c, ((o.established v x r s).callers.countP fun x => x.stage.hangsUp c) =
      o.callers.countP fun x => x.stage.hangsUp c := by
    intro c
    have h := @countP_set_add (fun x => x.stage.hangsUp c) _ _ _ hv
      { x with stage := .ended (.done r) }
    simp only [List.countP_cons, List.countP_nil, hs c] at h
    exact h
  have opened : ∀ {news}, w.remote.Becomes news s.world.remote → ∀ c : Nat,
      (openedIn s.world.remote.events).count c = if c < s.world.remote.opened then 1 else 0 := by
    intro news hb c
    have h1 := hb.grows
    rw [hb.events, openedIn_append, List.count_append, hb.opened, he, ha.opened, hc]
    rw [hc] at h1
    split <;> split <;> split <;> omega
  cases Manager.init_attempt hi with
  | failed hsame hb hcl hd =>
    have htracked : o.trackedAfter s.manager = o.tracked := by
      rw [hsame, trackedAfter]
      split
      · rename_i hf hp
        rw [Manager.pool?, hf] at hp
        cases hp
      · rfl
    refine ⟨opened hb, ?_, fun hback c => ?_, fun hn => ?_⟩
    · show ∀ c : Nat, c ∈ (o.trackedAfter s.manager).opened → c < s.world.remote.opened
      rw [htracked]
      intro c h
      exact Nat.lt_of_lt_of_le (ha.numbered c h) (hc ▸ hb.grows)
    · change s.manager.plan.RollsBack at hback
      rw [hsame] at hback
      have h1 := ha.balance hback c
      have h2 := hangs c
      have h3 := hcl hback c
      simp only [standing] at h1 ⊢
      rw [h2]
      show (openedIn s.world.remote.events).count c + (o.trackedAfter s.manager).closed.count c =
        (closedIn s.world.remote.events).count c + (o.trackedAfter s.manager).opened.count c +
          (s.manager.standing c + _)
      rw [htracked, hsame, hb.events, openedIn_append, closedIn_append, he]
      simp only [List.count_append]
      omega
    · exact htracked.trans (ha.unopened (by rw [← hsame]; exact hn))
  | succeeded hopen hf hmade hb hest =>
    -- there was no pool before, so nothing happened at one
    have hfresh : o.tracked = { system := {}, opened := [] } :=
      ha.unopened (by rw [Manager.pool?, hf]; rfl)
    have hnone : ∀ c, o.manager.standing c = 0 := fun c => by simp [Manager.standing, hf]
    have hbalance := ha.balance
    simp only [standing, hnone, hfresh] at hbalance
    have hplan : (o.established v x (.ok ()) s).manager.plan = o.manager.plan := by
      show s.manager.plan = _
      rw [hmade]
    cases hest with
    | @direct d request _ hp =>
      have htracked : o.trackedAfter s.manager = o.tracked := by
        rw [hmade, trackedAfter]
        split
        · rename_i hq
          cases hq
        · rfl
      -- the new client is the manager's own
      have hstanding : ∀ c, s.manager.standing c = [d].count c := fun c => by
        rw [hmade, Manager.standing]
        exact if_neg (by simp [hopen])
      refine ⟨opened hb, ?_, fun hback c => ?_, fun _ => htracked.trans hfresh⟩
      · show ∀ c : Nat, c ∈ (o.trackedAfter s.manager).opened → _
        rw [htracked, hfresh]
        intro c h
        cases h
      · have h1 := hbalance (hplan ▸ hback) c
        show (openedIn s.world.remote.events).count c + (o.trackedAfter s.manager).closed.count c =
          (closedIn s.world.remote.events).count c + (o.trackedAfter s.manager).opened.count c +
            (s.manager.standing c + _)
        rw [htracked, hfresh, hstanding, hangs, hb.events, he, openedIn_append, closedIn_append]
        simp only [List.count_append, openedIn, closedIn, Event.opened?, Event.closed?,
          List.filterMap_cons, List.filterMap_nil, List.count_nil] at h1 ⊢
        omega
    | @pooled p _ _ hp hl hopens hcl hidle =>
      have htracked : o.trackedAfter s.manager =
          { system := { core := p.core }, opened := p.core.idle } := by
        rw [hmade, trackedAfter, hf]
        rfl
      -- the new clients are the pool's
      have hstanding : ∀ c, s.manager.standing c = 0 := fun c => by rw [hmade]; rfl
      refine ⟨opened hb, ?_, fun hback c => ?_, fun hn => ?_⟩
      · show ∀ c : Nat, c ∈ (o.trackedAfter s.manager).opened → c < s.world.remote.opened
        rw [htracked]
        intro c h
        have hpos := List.count_pos_iff.mpr h
        rw [hidle c] at hpos
        exact (hb.mem_openedIn.mp (List.count_pos_iff.mp hpos)).2
      · have h1 := hbalance (hplan ▸ hback) c
        have h2 := hidle c
        show (openedIn s.world.remote.events).count c + (o.trackedAfter s.manager).closed.count c =
          (closedIn s.world.remote.events).count c + (o.trackedAfter s.manager).opened.count c +
            (s.manager.standing c + _)
        rw [htracked, hstanding, hangs, hb.events, he, openedIn_append, closedIn_append, hcl]
        simp only [List.count_append, List.count_nil] at h1 ⊢
        omega
      · change s.manager.pool? = none at hn
        rw [hmade] at hn
        cases hn

theorem Step.accounts (st : Step o h o') (ha : o.Accounts) : o'.Accounts := by
  cases st with
  | arrive =>
    refine ha.of_same rfl rfl rfl rfl rfl (fun c => ?_) fun _ => rfl
    show (o.callers ++ [_]).countP _ = _
    simp [List.countP_append, Stage.hangsUp]
  | @handOver n x _ hn hh =>
    refine ha.of_same rfl rfl rfl rfl rfl (fun c => ?_) fun _ => rfl
    have h := @countP_set_add (fun x => x.stage.hangsUp c) _ _ _ hn { x with loan := none }
    show (List.set _ _ _ ++ [_]).countP _ = _
    simp [List.countP_append, Stage.hangsUp] at h ⊢
    omega
  | @look v x f hv hm =>
    have hs := Stage.hangsUp_eq_false hm (fun _ _ h => by cases h)
    exact ha.put hv [] rfl (Stage.transition_of_look hm o.manager) (Stage.facade_of_look hm _) rfl
      fun c => by rw [hs]; rfl
  | establish hv hm hc he hi => exact ha.establish hv hm hc he hi
  | @enter v x d _ p tracked hv hm ht hp st =>
    have hnews : newsOf p o.tracked (d.happening o.tracked x.loan) = [] := by
      cases d with
      | giveBack c =>
        simp only [Pool.Demand.happening]
        repeat' split
        all_goals rfl
      | _ => rfl
    have ho := newsOf_opened st
    have hx := newsOf_closed st
    rw [hnews] at ho hx
    refine ha.of_same rfl rfl rfl ho hx (fun c => ?_) fun hn => ?_
    · have h := @countP_set_add (fun x => x.stage.hangsUp c) _ _ _ hv
        (x.calls o.tracked.system.threads.length d)
      exact Nat.add_right_cancel h
    · cases hp.symm.trans hn
  | inside hp hh hc st => exact ha.inside hp hc st
  | @back v x _ _ _ _ hv hm =>
    have hs := Stage.hangsUp_eq_false hm (fun _ _ h => by cases h)
    exact ha.put hv [] rfl (Stage.transition_of_call hm o.manager _) rfl rfl fun c => by
      rw [hs]; rfl
  | @sent v x _ _ _ _ hv hm =>
    have hs := Stage.hangsUp_eq_false hm (fun _ _ h => by cases h)
    exact ha.put hv [_] rfl (Stage.transition_of_send hm o.manager _) rfl rfl fun c => by
      rw [hs]; rfl
  | @hungUp v x d _ _ hv hm =>
    have hs : x.stage = .hangingUp d := by
      generalize x.stage = stage at hm
      cases stage with
      | hangingUp e =>
        cases hm
        rfl
      | starting e => cases e <;> cases hm
      | _ => cases hm
    refine ha.put hv [_] rfl (Stage.transition_of_hangUp hm o.manager _) rfl rfl fun c => ?_
    rw [hs]
    exact List.count_singleton

theorem fresh_accounts (plan : ManagerPlan) : (fresh plan).Accounts :=
  ⟨fun c => by simp [fresh], nofun, fun _ _ => rfl, fun _ => rfl⟩

theorem Reachable.accounts {rule : Rule} (hr : Reachable plan rule o) : o.Accounts :=
  hr.keeps (fresh_accounts plan) fun _ _ st => st.accounts

end ManagerSystem
end RedisGateway
