import RedisGateway.Manager
import RedisGateway.Proofs.Pool.Solo

/-!
What the operations of a manager with a pool do to the connections that are lent: a handle takes
one, a release gives it back, and every other operation leaves them alone.
-/

namespace RedisGateway

/-! ## Operations -/

theorem Act.run_bind {σ α β : Type} (x : Act σ α) (f : α → Act σ β) (s : σ) :
    (x >>= f).run s = match x.run s with
      | (.ok a, s) => (f a).run s
      | (.error e, s) => (.error e, s) := by
  show (ExceptT.bind x f).run s = _
  simp only [ExceptT.bind, ExceptT.run, ExceptT.mk, bind, StateT.bind, ExceptT.bindCont]
  cases x s with
  | mk r s => cases r <;> rfl

/-- An operation that keeps something, whether it succeeds or fails. -/
def Act.Keeps {σ α : Type} (kept : σ → Prop) (act : Act σ α) : Prop :=
  ∀ s, kept s → kept (act.run s).2

namespace Act.Keeps

variable {σ α β : Type} {kept : σ → Prop}

theorem pure (a : α) : Keeps kept (Pure.pure a : Act σ α) := fun _ hs => hs

theorem throw (f : Fault) : Keeps kept (MonadExcept.throw f : Act σ α) := fun _ hs => hs

theorem get : Keeps kept (MonadState.get : Act σ σ) := fun _ hs => hs

theorem lift (x : Except Fault α) : Keeps kept (liftM x : Act σ α) := by
  intro s hs
  cases x <;> exact hs

theorem bind {x : Act σ α} {f : α → Act σ β} (hx : Keeps kept x) (hf : ∀ a, Keeps kept (f a)) :
    Keeps kept (x >>= f) := by
  intro s hs
  have h := hx s hs
  rw [run_bind]
  cases hr : x.run s with
  | mk r t =>
    rw [hr] at h
    cases r with
    | ok a => exact hf a t h
    | error e => exact h

theorem forIn {ρ : Type} (as : List α) (init : ρ) {f : α → ρ → Act σ (ForInStep ρ)}
    (hf : ∀ a r, Keeps kept (f a r)) : Keeps kept (ForIn.forIn as init f) := by
  induction as generalizing init with
  | nil => exact .pure _
  | cons a as ih =>
    rw [List.forIn_cons]
    refine .bind (hf a init) fun step => ?_
    cases step with
    | done r => exact .pure _
    | yield r => exact ih r

end Act.Keeps

/-! ## The remote side as the surroundings of a pool -/

@[simp] theorem World.noteAll_remote (w : World) (ns : List Notice) :
    (w.noteAll ns).remote = w.remote := by
  induction ns generalizing w with
  | nil => rfl
  | cons n ns ih => exact ih (w.note n)

namespace Remote

theorem takeReply_opened (r : Remote) (command : String) :
    (r.takeReply command).2.opened = r.opened := by
  unfold takeReply
  split <;> rfl

theorem send_opened (c : ClientId) (call : Call) (r : Remote) :
    (r.send c call).2.opened = r.opened := by
  unfold send
  split
  · rfl
  · dsimp only
    split
    · split
      · rfl
      · exact takeReply_opened ..
    · exact takeReply_opened ..

theorem nextRefusal_opened (r : Remote) : r.nextRefusal.2.opened = r.opened := by
  unfold nextRefusal
  split <;> rfl

theorem openClient_ok {request : ClientRequest} {r : Remote} {c : ClientId}
    (h : (r.openClient request).1 = .ok c) :
    c = r.opened ∧ (r.openClient request).2.opened = r.opened + 1 := by
  have ho := r.nextRefusal_opened
  unfold openClient at h ⊢
  split at h
  · cases h
  · rename_i hr
    rw [hr] at ho
    cases h
    exact ⟨ho, congrArg (· + 1) ho⟩

theorem openClient_opened (request : ClientRequest) (r : Remote) :
    r.opened ≤ (r.openClient request).2.opened := by
  have ho := r.nextRefusal_opened
  unfold openClient
  split
  · rename_i hr
    rw [hr] at ho
    exact Nat.le_of_eq ho.symm
  · rename_i hr
    rw [hr] at ho
    exact Nat.le_trans (Nat.le_of_eq ho.symm) (Nat.le_succ _)

end Remote

namespace ConnectionPool

/-- The clients that were opened so far are those below a number that only grows. -/
theorem surroundings_inventive (request : ClientRequest) :
    (surroundings request).Inventive fun w c => c < w.remote.opened := by
  refine ⟨?_, ?_, ?_⟩
  · intro w c h
    obtain ⟨rfl, ho⟩ := Remote.openClient_ok h
    exact ⟨Nat.lt_irrefl _, Nat.lt_of_lt_of_eq (Nat.lt_succ_self _) ho.symm⟩
  · intro r w c h
    cases r with
    | supply => exact Nat.lt_of_lt_of_le h (Remote.openClient_opened ..)
    | ping d =>
      exact Nat.lt_of_lt_of_eq h (Remote.send_opened d { command := "ping" } w.remote).symm
    | close d => exact h
  · intro ns w c h
    exact Nat.lt_of_lt_of_eq h (congrArg Remote.opened (World.noteAll_remote w ns)).symm

end ConnectionPool

namespace Manager

/-! ## Lending -/

/-- A manager with a pool at rest, of which the clients in `lent` are in use. -/
def Lends (lent : ClientId → Prop) (s : Site) : Prop :=
  s.manager.plan.pooling = true ∧ ∃ t p, s.manager.facade = some ⟨t, .pooled p⟩ ∧
    Pool.Rest (· < s.world.remote.opened) p.core ∧ ∀ c, c ∈ p.core.inUse ↔ lent c

theorem Lends.congr {lent lent' : ClientId → Prop} {s : Site} (h : Lends lent s)
    (he : ∀ c, lent c ↔ lent' c) : Lends lent' s := by
  obtain ⟨hp, t, p, hf, hr, hl⟩ := h
  exact ⟨hp, t, p, hf, hr, fun c => (hl c).trans (he c)⟩

variable {lent : ClientId → Prop} {s : Site} {t : Topology} {p : ConnectionPool}
  {r : Pool.Result} {core : Pool.Core} {w : World}

/-- What a call of the pool leaves behind. -/
def leave (s : Site) (t : Topology) (p : ConnectionPool) (core : Pool.Core) (w : World) : Site :=
  ⟨{ s.manager with facade := some ⟨t, .pooled { p with core }⟩ }, w⟩

theorem Lends.leave (hp : s.manager.plan.pooling = true)
    (hr : Pool.Rest (· < w.remote.opened) core) (hl : ∀ c, c ∈ core.inUse ↔ lent c) :
    Lends lent (leave s t p core w) :=
  ⟨hp, t, { p with core }, rfl, hr, hl⟩

/-- The handle that a borrower gets. -/
def handleOf (t : Topology) : Pool.Result → Except Fault Handle
  | .ok (some client) => .ok { topology := t, client, pooled := true }
  | .ok none => .error .waitsForever
  | .error e => .error e

theorem handle_run (hf : s.manager.facade = some ⟨t, .pooled p⟩)
    (ho : Pool.borrow (ConnectionPool.surroundings p.request) p.policy none p.core s.world =
      (r, core, w)) :
    handle.run s = (handleOf t r, Manager.leave s t p core w) := by
  have h : handle.run s = onFacade ⟨t, .pooled p⟩ Facade.handle s := by
    obtain ⟨⟨plan, facade, closed, registry⟩, world⟩ := s
    cases hf
    cases closed <;> rfl
  rw [h]
  simp only [onFacade, Facade.handle, ConnectionPool.perform, ho]
  cases r with
  | ok got => cases got <;> rfl
  | error e => rfl

theorem release_run (hp : s.manager.plan.pooling = true)
    (hf : s.manager.facade = some ⟨t, .pooled p⟩) {h : Handle}
    (ho : Pool.giveBack (ConnectionPool.surroundings p.request) p.policy h.client p.core s.world =
      (r, core, w)) :
    (release (some h)).run s = (r.map fun _ => (), Manager.leave s t p core w) := by
  have h : (release (some h)).run s = onFacade ⟨t, .pooled p⟩ (fun f w => f.release h w) s := by
    obtain ⟨⟨⟨_, _, pooling, _⟩, facade, closed, registry⟩, world⟩ := s
    cases hf
    cases hp
    rfl
  rw [h]
  simp only [onFacade, Facade.release, ConnectionPool.perform, ho]
  rfl

theorem shutPool_run (ho : Pool.close (ConnectionPool.surroundings p.request) p.policy p.core
      s.world = (r, core, w)) :
    (shutPool ⟨t, .pooled p⟩ p).run s = (r.map fun _ => (), Manager.leave s t p core w) := by
  show shutPool ⟨t, .pooled p⟩ p s = _
  simp only [shutPool, onFacade, ConnectionPool.perform, ho]
  rfl

/-- A handle comes with a client that was not lent, or the attempt lends nothing. -/
theorem Lends.handle (hs : Lends lent s) :
    (∃ h s', Manager.handle.run s = (.ok h, s') ∧ ¬lent h.client ∧
      Lends (fun c => lent c ∨ c = h.client) s') ∨
    ∃ f s', Manager.handle.run s = (.error f, s') ∧ Lends lent s' := by
  obtain ⟨hp, t, p, hf, hr, hl⟩ := hs
  obtain ⟨r, core, w, ho⟩ : ∃ r core w, Pool.borrow (ConnectionPool.surroundings p.request)
      p.policy none p.core s.world = (r, core, w) := ⟨_, _, _, rfl⟩
  obtain ⟨hr', h⟩ := hr.borrow (ConnectionPool.surroundings_inventive p.request) ho
  rw [handle_run hf ho]
  rcases h with ⟨c, rfl, hc⟩ | ⟨f, rfl, hc⟩
  · have hn : c ∉ p.core.inUse := by
      intro hm
      have h1 := hc c
      have h2 := hr'.apart c
      have h3 := List.count_pos_iff.mpr hm
      rw [List.count_singleton_self] at h1
      omega
    refine .inl ⟨⟨t, c, true⟩, _, rfl, mt (hl c).mpr hn, .leave hp hr' fun d => ?_⟩
    rw [← hl d, ← List.count_pos_iff, ← List.count_pos_iff, hc d, List.count_singleton]
    by_cases hd : c = d
    · simp [hd]
    · simp [hd, Ne.symm hd]
  · refine .inr ⟨f, _, rfl, .leave hp hr' fun d => ?_⟩
    rw [← hl d, ← List.count_pos_iff, ← List.count_pos_iff, hc d]

/-- Giving back a client that is lent takes it from whoever has it. -/
theorem Lends.release (hs : Lends lent s) {h : Handle} (hh : lent h.client) :
    Lends (fun c => lent c ∧ c ≠ h.client) ((Manager.release (some h)).run s).2 := by
  obtain ⟨hp, t, p, hf, hr, hl⟩ := hs
  obtain ⟨r, core, w, ho⟩ : ∃ r core w, Pool.giveBack (ConnectionPool.surroundings p.request)
      p.policy h.client p.core s.world = (r, core, w) := ⟨_, _, _, rfl⟩
  obtain ⟨hr', hc⟩ := hr.giveBack (ConnectionPool.surroundings_inventive p.request)
    ((hl _).mpr hh) ho
  rw [release_run hp hf ho]
  refine .leave hp hr' fun d => ?_
  have h1 := hc d
  have h2 := hr.apart d
  rw [List.count_singleton] at h1
  rw [← hl d, ← List.count_pos_iff, ← List.count_pos_iff]
  by_cases hd : h.client = d
  · subst hd
    simp only [beq_self_eq_true, if_true] at h1
    simp only [ne_eq, not_true, and_false, iff_false]
    omega
  · rw [if_neg (by simpa using hd)] at h1
    simp only [ne_eq, Ne.symm hd, not_false_iff, and_true]
    omega

/-- What touches neither the pool nor the number of clients keeps what is lent. -/
theorem Lends.elsewhere (hs : Lends lent s) {s' : Site} (hp : s'.manager.plan = s.manager.plan)
    (hf : s'.manager.facade = s.manager.facade)
    (ho : s'.world.remote.opened = s.world.remote.opened) : Lends lent s' := by
  obtain ⟨hpool, t, p, hfac, hr, hl⟩ := hs
  refine ⟨by rw [hp, hpool], t, p, hf.trans hfac, ?_, hl⟩
  rw [ho]
  exact hr

/-- Giving back a client that is not lent changes nothing and asks nothing of anyone. -/
theorem Lends.release_ignored (hs : Lends lent s) {h : Handle} (hh : ¬lent h.client) :
    ∃ s', (Manager.release (some h)).run s = (.ok (), s') ∧ s'.manager = s.manager ∧
      s'.world.remote = s.world.remote ∧ Lends lent s' := by
  have hs' := hs
  obtain ⟨hp, t, p, hf, hr, hl⟩ := hs
  have hi := Pool.giveBack_ignored (ConnectionPool.surroundings p.request) p.policy
    (mt (hl _).mp hh) s.world
  have hm : { s.manager with facade := some ⟨t, .pooled p⟩ } = s.manager := by rw [← hf]
  have hw := World.noteAll_remote s.world [.returnIgnored p.policy.name]
  exact ⟨_, release_run hp hf hi, hm, hw, hs'.elsewhere rfl hf.symm (congrArg Remote.opened hw)⟩

theorem Lends.release_none (hs : Lends lent s) : (Manager.release none).run s = (.ok (), s) := by
  obtain ⟨hp, t, p, hf, -⟩ := hs
  obtain ⟨⟨⟨_, _, pooling, _⟩, facade, closed, registry⟩, world⟩ := s
  cases hf
  cases hp
  rfl

/-- Closing the pool revokes nothing that is lent. -/
theorem Lends.shutPool (hp : s.manager.plan.pooling = true)
    (hr : Pool.Rest (· < s.world.remote.opened) p.core) (hl : ∀ c, c ∈ p.core.inUse ↔ lent c) :
    Lends lent ((Manager.shutPool ⟨t, .pooled p⟩ p).run s).2 := by
  obtain ⟨r, core, w, ho⟩ : ∃ r core w, Pool.close (ConnectionPool.surroundings p.request)
      p.policy p.core s.world = (r, core, w) := ⟨_, _, _, rfl⟩
  obtain ⟨hr', hc⟩ := hr.close (ConnectionPool.surroundings_inventive p.request) ho
  rw [shutPool_run ho]
  refine .leave hp hr' fun d => ?_
  rw [← hl d, ← List.count_pos_iff, ← List.count_pos_iff, hc d]

/-- A client that is lent was opened. -/
theorem Lends.opened (hs : Lends lent s) {c : ClientId} (hc : lent c) :
    c < s.world.remote.opened := by
  obtain ⟨-, t, p, -, hr, hl⟩ := hs
  have h := List.count_pos_iff.mpr ((hl c).mpr hc)
  exact hr.known c (by omega)

/-! ## Everything but handles and releases -/

/-- Asking for an executor touches nothing but the registry of executors. -/
theorem executor_run (category : Value) (s : Site) : (executor category).run s =
    match Category.ofValue? category with
    | some c => (.ok (s.manager.registry.obtain c).1,
      { s with manager := { s.manager with registry := (s.manager.registry.obtain c).2 } })
    | none => (.error (.unknownCategory category), s) := by
  show executor category s = _
  simp only [executor, Registry.ofValue]
  cases Category.ofValue? category <;> rfl

theorem obtain_category (r : Registry) (c : Category) : (r.obtain c).1.category = c := by
  unfold Registry.obtain
  split
  · rename_i e hf
    have hf := List.find?_some (show r.executors.find? (·.category = c) = some e from hf)
    exact of_decide_eq_true hf
  · rfl

/-- Something about sites that lasts while executors work. It may depend on what is lent, which
changes while a body runs with its handle. -/
structure Stable {ι : Type} (kept : ι → Site → Prop) : Prop where
  elsewhere : ∀ {i s s'}, kept i s → s'.manager.plan = s.manager.plan →
    s'.manager.facade = s.manager.facade →
    s'.world.remote.opened = s.world.remote.opened → kept i s'
  withHandle : ∀ {α : Type} {body : Handle → Act Site α},
    (∀ h i, (body h).Keeps (kept i)) → ∀ i, (Manager.withHandle body).Keeps (kept i)

namespace Stable

variable {ι : Type} {kept : ι → Site → Prop}

/-- What handles and releases keep lasts while a body runs between them. -/
theorem of_steps
    (elsewhere : ∀ {i s s'}, kept i s → s'.manager.plan = s.manager.plan →
      s'.manager.facade = s.manager.facade →
      s'.world.remote.opened = s.world.remote.opened → kept i s')
    (handle : ∀ i, Manager.handle.Keeps (kept i))
    (release : ∀ h i, (Manager.release h).Keeps (kept i)) : Stable kept := by
  refine ⟨elsewhere, fun {α body} hb i => .bind (handle i) fun h s hs => ?_⟩
  have hs₁ := hb h i s hs
  show kept i (thenAlways (body h) (Manager.release (some h)) s).2
  simp only [thenAlways]
  exact release (some h) i _ hs₁

variable (hk : Stable kept) (i : ι)
include hk

theorem note (n : Notice) : (Manager.note n).Keeps (kept i) := fun _ hs =>
  hk.elsewhere hs rfl rfl rfl

theorem send (h : Handle) (call : Call) : (Manager.send h call).Keeps (kept i) := fun s hs =>
  hk.elsewhere hs rfl rfl (Remote.send_opened h.client call s.world.remote)

theorem executor (category : Value) : (Manager.executor category).Keeps (kept i) := by
  refine .bind .get fun site => .bind (.lift _) fun made => .bind ?_ fun _ => .pure _
  exact fun s hs => hk.elsewhere hs rfl rfl rfl

theorem execute (call : Call) : (Manager.execute call).Keeps (kept i) := by
  refine hk.withHandle (fun h i => .bind (hk.send i h call) fun outcome => ?_) i
  exact .bind (.forIn _ _ fun n _ => .bind (hk.note i n) fun _ => .pure _) fun _ => .lift _

theorem executeGiven (args : List Value) (named : Fields) :
    (Manager.executeGiven args named).Keeps (kept i) := by
  unfold Manager.executeGiven
  split
  · exact .throw _
  · exact hk.execute i _
  · exact hk.withHandle (fun _ _ => .throw _) i

theorem command (category : Value) (name : String) (args : List Value) (named : Fields) :
    (Manager.command category name args named).Keeps (kept i) := by
  refine .bind (hk.executor i category) fun e => ?_
  cases ExecutorMember.find? e.category name with
  | none => exact .throw _
  | some m =>
    cases m with
    | «attribute» => exact .throw _
    | sender => exact hk.executeGiven i args named
    | command c => exact .bind (.lift _) fun _ => hk.execute i _

end Stable

/-- No call of an executor changes what is lent: a body that keeps what is lent, whatever that is,
still does so with a handle of its own. -/
theorem stable_lends : Stable Lends := by
  refine ⟨fun hs => hs.elsewhere, fun {α body} hb lent s hs => ?_⟩
  rw [withHandle, Act.run_bind]
  rcases hs.handle with ⟨h, s₁, hr, hn, hs₁⟩ | ⟨f, s₁, hr, hs₁⟩
  · rw [hr]
    have hs₂ := hb h _ s₁ hs₁
    refine (hs₂.release (h := h) (.inr rfl)).congr fun c => ?_
    by_cases hc : c = h.client
    · subst hc
      simp [hn]
    · simp [hc]
  · rw [hr]
    exact hs₁

theorem closePool_keeps : closePool.Keeps (Lends lent) := by
  rintro s ⟨hp, t, p, hf, hr, hl⟩
  have h : closePool.run s = (shutPool ⟨t, .pooled p⟩ p).run s := by
    obtain ⟨⟨plan, facade, closed, registry⟩, world⟩ := s
    cases hf
    rfl
  rw [h]
  exact .shutPool hp hr hl

theorem close_keeps : close.Keeps (Lends lent) := by
  rintro s ⟨hp, t, p, hf, hr, hl⟩
  obtain ⟨⟨plan, facade, closed, registry⟩, world⟩ := s
  cases hf
  cases closed with
  | true => exact ⟨hp, t, p, rfl, hr, hl⟩
  | false =>
    have h : close.run ⟨⟨plan, some ⟨t, .pooled p⟩, false, registry⟩, world⟩ =
      (shutPool ⟨t, .pooled p⟩ p >>= fun _ => note .managerClosed).run
        ⟨⟨plan, some ⟨t, .pooled p⟩, true, registry⟩, world⟩ := rfl
    have hs : Lends lent ((shutPool ⟨t, .pooled p⟩ p).run
        ⟨⟨plan, some ⟨t, .pooled p⟩, true, registry⟩, world⟩).2 := .shutPool hp hr hl
    rw [h, Act.run_bind]
    split
    · rename_i hrun
      rw [hrun] at hs
      exact stable_lends.note _ _ _ hs
    · rename_i hrun
      rw [hrun] at hs
      exact hs

/-- A manager is not initialized again. -/
theorem init_keeps (hosts : String) (password : Value) (options : Options) :
    (init hosts password options).Keeps (Lends lent) := by
  rintro s ⟨hp, t, p, hf, hr, hl⟩
  obtain ⟨⟨plan, facade, closed, registry⟩, world⟩ := s
  cases hf
  cases closed <;> exact ⟨hp, t, p, rfl, hr, hl⟩

end Manager
end RedisGateway
