import RedisGateway.Proofs.Manager.Lending

/-!
What a successful initialization makes: with pooling a source of clients is a request, and the
facade around it has a pool at rest of which nothing is lent yet.
-/

namespace RedisGateway

namespace Act

variable {σ α β : Type}

theorem of_bind {x : Act σ α} {f : α → Act σ β} {s s' : σ} {b : β}
    (h : (x >>= f).run s = (.ok b, s')) :
    ∃ a t, x.run s = (.ok a, t) ∧ (f a).run t = (.ok b, s') := by
  rw [run_bind] at h
  split at h
  · exact ⟨_, _, ‹_›, h⟩
  · cases h

/-- An operation that comes to nothing else, if it succeeds. -/
def Yields (wanted : α → Prop) (x : Act σ α) : Prop :=
  ∀ s a s', x.run s = (.ok a, s') → wanted a

namespace Yields

variable {wanted : α → Prop}

theorem pure {a : α} (h : wanted a) : Yields wanted (Pure.pure a : Act σ α) := by
  intro s b s' hr
  cases hr
  exact h

theorem throw (f : Fault) : Yields wanted (MonadExcept.throw f : Act σ α) := nofun

theorem bind {x : Act σ β} {f : β → Act σ α} (hf : ∀ b, Yields wanted (f b)) :
    Yields wanted (x >>= f) := by
  intro s a s' hr
  obtain ⟨b, t, -, hr⟩ := of_bind hr
  exact hf b t a s' hr

end Yields
end Act

namespace Connector

variable {k : Connector}

/-- A source of clients for a pool. -/
def Supplies (source : ClientSource) : Prop := ∃ request, source = .supplier request

theorem standalone_supplies (hk : k.pooling = true) (address : ServerAddress) (password : Value)
    (options : Options) : (k.standalone address password options).Yields Supplies := by
  refine .bind fun t => .bind fun _ => .bind fun _ => ?_
  rw [if_pos hk]
  exact .pure ⟨_, rfl⟩

theorem cluster_supplies (hk : k.pooling = true) (addresses : List ServerAddress)
    (password : Value) (options : Options) :
    (k.cluster addresses password options).Yields Supplies := by
  refine .bind fun transports => ?_
  cases transports with
  | nil => exact .throw _
  | cons t rest =>
    simp only [clusterSource, if_pos hk]
    exact .bind fun _ => .pure ⟨_, rfl⟩

/-- A connector that makes clients for a pool opens none by itself. -/
theorem connect_supplies (hk : k.pooling = true) (topology : Topology)
    (addresses : List ServerAddress) (password : Value) (options : Options) :
    (k.connect topology addresses password options).Yields Supplies := by
  cases topology with
  | cluster => exact cluster_supplies hk addresses password options
  | standalone =>
    cases addresses with
    | nil => exact .throw _
    | cons a rest => exact standalone_supplies hk a password options

end Connector

namespace Manager

variable {plan : ManagerPlan}

/-- The facade around a request has the pool that was opened with it. -/
theorem facadeOf_run {request : ClientRequest} {opened : Except Fault Pool.Core} {w w' : World}
    (ho : Pool.openPool (ConnectionPool.surroundings request) ⟨poolName plan, plan.limits⟩ w =
      (opened, w')) :
    (facadeOf plan (.supplier request)).run w = (opened.map fun core =>
      ⟨plan.topology, .pooled ⟨⟨poolName plan, plan.limits⟩, request, core⟩⟩, w') := by
  show facadeOf plan (.supplier request) w = _
  simp only [facadeOf, ConnectionPool.create, ho]
  cases opened <;> rfl

/-- A pool that was just made is at rest, with nothing in use. -/
theorem facadeOf_supplier {request : ClientRequest} {facade : Facade} {w w' : World}
    (h : (facadeOf plan (.supplier request)).run w = (.ok facade, w')) :
    ∃ p, facade = ⟨plan.topology, .pooled p⟩ ∧
      Pool.Rest (· < w'.remote.opened) p.core ∧ p.core.inUse = [] := by
  obtain ⟨opened, w₁, ho⟩ : ∃ opened w₁, Pool.openPool (ConnectionPool.surroundings request)
      ⟨poolName plan, plan.limits⟩ w = (opened, w₁) := ⟨_, _, rfl⟩
  rw [facadeOf_run ho] at h
  cases opened with
  | error f => cases h
  | ok core =>
    cases h
    exact ⟨_, rfl, Pool.Rest.opening (ConnectionPool.surroundings_inventive request) ho⟩

theorem establish_pooled (hp : plan.pooling = true) {hosts : String} {password : Value}
    {options : Options} {facade : Facade} {count : Nat} {w w' : World}
    (h : (establish plan hosts password options).run w = (.ok (facade, count), w')) :
    ∃ p, facade = ⟨plan.topology, .pooled p⟩ ∧
      Pool.Rest (· < w'.remote.opened) p.core ∧ p.core.inUse = [] := by
  obtain ⟨addresses, w₁, -, h⟩ := Act.of_bind h
  dsimp only at h
  split at h
  · obtain ⟨_, _, ht, -⟩ := Act.of_bind h
    cases ht
  · obtain ⟨source, w₂, hs, h⟩ := Act.of_bind h
    obtain ⟨request, rfl⟩ := Connector.connect_supplies hp _ _ _ _ _ _ _ hs
    obtain ⟨f, w₃, hf, h⟩ := Act.of_bind h
    cases h
    exact facadeOf_supplier hf

theorem onWorld_ok {α : Type} {act : Act World α} {a : α} {s s' : Site}
    (h : (onWorld act).run s = (.ok a, s')) :
    act.run s.world = (.ok a, s'.world) ∧ s'.manager = s.manager := by
  have hr : (onWorld act).run s =
    ((act.run s.world).1, { s with world := (act.run s.world).2 }) := rfl
  rw [hr] at h
  cases hw : act.run s.world with
  | mk r w =>
    rw [hw] at h
    cases h
    exact ⟨rfl, rfl⟩

/-- A manager with a pool lends nothing when it was just initialized. -/
theorem init_lends {hosts : String} {password : Value} {options : Options} {s s' : Site}
    (hp : s.manager.plan.pooling = true)
    (h : (init hosts password options).run s = (.ok (), s')) : Lends (fun _ => False) s' := by
  obtain ⟨_, _, hg, h⟩ := Act.of_bind h
  cases hg
  dsimp only at h
  split at h
  · obtain ⟨_, _, ht, -⟩ := Act.of_bind h
    cases ht
  · split at h
    · obtain ⟨_, _, ht, -⟩ := Act.of_bind h
      cases ht
    · obtain ⟨⟨facade, count⟩, s₁, hw, h⟩ := Act.of_bind h
      obtain ⟨hw, hm⟩ := onWorld_ok hw
      obtain ⟨p, rfl, hr, hi⟩ := establish_pooled hp hw
      obtain ⟨_, s₂, hs, h⟩ := Act.of_bind h
      cases hs
      cases h
      refine ⟨?_, _, p, rfl, hr, fun c => ?_⟩
      · show s₁.manager.plan.pooling = true
        rw [hm, hp]
      · rw [hi]
        exact ⟨nofun, nofun⟩

end Manager
end RedisGateway
