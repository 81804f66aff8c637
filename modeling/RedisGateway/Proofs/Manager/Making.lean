import RedisGateway.Proofs.Manager.Transition

/-!
What a manager was made with and initialized with stays: whatever callers do, the facade is the one
that fits the plan.
-/

namespace RedisGateway
namespace Manager

/-- A manager that was made with a plan, and has the facade that fits it. -/
structure Made (plan : ManagerPlan) (s : Site) : Prop where
  plan_eq : s.manager.plan = plan
  facade : ∃ f, s.manager.facade = some f ∧ f.Fits plan

variable {plan : ManagerPlan} {α : Type}

theorem Made.elsewhere {s s' : Site} (hs : Made plan s) (hp : s'.manager.plan = s.manager.plan)
    (hf : s'.manager.facade = s.manager.facade) : Made plan s' :=
  ⟨hp.trans hs.plan_eq, hf ▸ hs.facade⟩

/-- An operation of a facade that keeps what the facade was made with. -/
theorem onFacade_made {f : Facade} {act : Facade → World → Except Fault α × Facade × World}
    (ha : ∀ w, (act f w).2.1.Fits plan) : (onFacade f act).Keeps (Made plan) := by
  intro s hs
  exact ⟨hs.plan_eq, _, rfl, ha s.world⟩

theorem handle_fits {f : Facade} (hf : f.Fits plan) (w : World) : (f.handle w).2.1.Fits plan := by
  obtain ⟨t, backend⟩ := f
  cases backend <;> exact hf

theorem release_fits {f : Facade} (hf : f.Fits plan) (h : Handle) (w : World) :
    (f.release h w).2.1.Fits plan := by
  obtain ⟨t, backend⟩ := f
  cases backend <;> exact hf

theorem handle_made : handle.Keeps (Made plan) := by
  intro s hs
  obtain ⟨f, hf, hfit⟩ := hs.facade
  have hrun : handle.run s = (Except.error .managerClosed, s) ∨
      handle.run s = onFacade f Facade.handle s := by
    obtain ⟨⟨_, facade, closed, _⟩, world⟩ := s
    obtain ⟨t, backend⟩ := f
    cases hf
    cases closed <;> cases backend <;> first | exact .inr rfl | exact .inl rfl
  rcases hrun with hrun | hrun
  · rw [hrun]
    exact hs
  · rw [hrun]
    exact onFacade_made (fun w => handle_fits hfit w) s hs

theorem release_made (h : Option Handle) : (release h).Keeps (Made plan) := by
  intro s hs
  obtain ⟨f, hf, hfit⟩ := hs.facade
  have hrun : (release h).run s = (.ok (), s) ∨
      ∃ g, (release h).run s = onFacade f (fun f w => f.release g w) s := by
    obtain ⟨⟨⟨_, _, pooling, _⟩, facade, closed, _⟩, world⟩ := s
    cases hf
    cases pooling <;> cases h <;> first | exact .inl rfl | exact .inr ⟨_, rfl⟩
  rcases hrun with hrun | ⟨g, hrun⟩
  · rw [hrun]
    exact hs
  · rw [hrun]
    exact onFacade_made (fun w => release_fits hfit g w) s hs

theorem Stable.closeClient {ι : Type} {kept : ι → Site → Prop} (hk : Stable kept) (i : ι)
    (c : ClientId) : (Manager.closeClient c).Keeps (kept i) := by
  intro s hs
  rw [Stage.closeClient_run]
  have ho := congrArg Remote.opened (World.noteAll_remote
    { s.world with remote := (s.world.remote.close c).2 }
    (Stage.partingNotices (s.world.remote.close c).1))
  exact hk.elsewhere hs rfl rfl ho

theorem stable_made : Stable Made :=
  .of_steps (fun hs hp hf _ => hs.elsewhere hp hf) (fun _ => handle_made) fun h _ => release_made h

theorem shutPool_made {t : Topology} {p : ConnectionPool}
    (hf : Facade.Fits plan ⟨t, .pooled p⟩) : (shutPool ⟨t, .pooled p⟩ p).Keeps (Made plan) :=
  onFacade_made fun _ => hf

theorem closePool_made : closePool.Keeps (Made plan) := by
  intro s hs
  obtain ⟨⟨t, backend⟩, hf, hfit⟩ := hs.facade
  obtain ⟨⟨_, facade, closed, _⟩, world⟩ := s
  cases hf
  cases backend with
  | direct c => exact stable_made.note _ _ _ hs
  | pooled p => exact shutPool_made hfit _ hs

theorem close_made : close.Keeps (Made plan) := by
  intro s hs
  obtain ⟨⟨t, backend⟩, hf, hfit⟩ := hs.facade
  obtain ⟨⟨plan', facade, closed, registry⟩, world⟩ := s
  cases hf
  cases closed with
  | true => exact hs
  | false =>
    have hs' : Made plan ⟨⟨plan', some ⟨t, backend⟩, true, registry⟩, world⟩ :=
      hs.elsewhere rfl rfl
    cases backend with
    | direct c =>
      exact Act.Keeps.bind (stable_made.closeClient _ c) (fun _ => stable_made.note _ _) _ hs'
    | pooled p => exact Act.Keeps.bind (shutPool_made hfit) (fun _ => stable_made.note _ _) _ hs'

/-- A manager is not initialized again. -/
theorem init_made (hosts : String) (password : Value) (options : Options) :
    (init hosts password options).Keeps (Made plan) := by
  intro s hs
  obtain ⟨f, hf, -⟩ := hs.facade
  rcases init_run hosts password options s with ⟨fault, hr⟩ | ⟨-, hn, -⟩
  · rw [hr]
    exact hs
  · cases hf.symm.trans hn

/-- An initialization that succeeds leaves the facade that was planned. -/
theorem made_of_init {hosts : String} {password : Value} {options : Options} {s s' : Site}
    (h : (init hosts password options).run s = (.ok (), s')) : Made s.manager.plan s' := by
  cases init_attempt h with
  | succeeded ho hf hm hb he => exact ⟨by rw [hm], _, by rw [hm], he.fits⟩

end Manager

namespace HandleTable

open Manager (Made)

variable {plan : ManagerPlan} {hosts : String} {password : Value} {options : Options}
  {d : HandleTable}

/-- What actions can make of a manager with a plan from its initialization on. -/
def OpenedBy (plan : ManagerPlan) (hosts : String) (password : Value) (options : Options)
    (d : HandleTable) : Prop :=
  ∃ before site, before.manager.plan = plan ∧
    (Manager.init hosts password options).run before = (.ok (), site) ∧
    ∃ actions : List Action, d = actions.foldl after { site }

theorem OpenedBy.reached (hd : d.OpenedBy plan hosts password options)
    (hp : plan.pooling = true) : d.Reached := by
  obtain ⟨before, site, hplan, hi, actions, rfl⟩ := hd
  exact ⟨before, hosts, password, options, site, by rw [hplan, hp], hi, actions, rfl⟩

theorem made_after (hd : Made plan d.site) (action : Action) : Made plan (d.after action).site := by
  cases action with
  | obtain =>
    have h := Manager.handle_made d.site hd
    simp only [after]
    split <;> rename_i hr <;> rw [hr] at h <;> exact h
  | release n =>
    simp only [after]
    split
    · exact Manager.release_made _ _ hd
    · exact hd
  | releaseOther h =>
    simp only [after]
    split
    · exact Manager.release_made _ _ hd
    · exact hd
  | use n call =>
    simp only [after]
    split
    · exact Manager.stable_made.send _ _ call _ hd
    · exact hd
  | command category name args named =>
    exact Manager.stable_made.command _ category name args named _ hd
  | init hosts password options => exact Manager.init_made hosts password options _ hd
  | closePool => exact Manager.closePool_made _ hd
  | close => exact Manager.close_made _ hd
  | answers => exact hd.elsewhere rfl rfl

theorem OpenedBy.made (hd : d.OpenedBy plan hosts password options) : Made plan d.site := by
  obtain ⟨before, site, rfl, hi, actions, rfl⟩ := hd
  have hm : Made before.manager.plan ({ site } : HandleTable).site := Manager.made_of_init hi
  clear hi
  generalize ({ site } : HandleTable) = start at hm
  induction actions generalizing start with
  | nil => exact hm
  | cons action actions ih => exact ih _ (made_after hm action)

end HandleTable
end RedisGateway
