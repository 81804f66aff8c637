import RedisGateway.Proofs.Manager.Requests

/-!
What becomes of an initialization whose clients are refused. How many clients it opens depends on
the plan alone; the first one that is refused ends it, in a fault that depends on who opened the
client.
-/

namespace RedisGateway

/-! ## Faults that tell of a refusal -/

/-- The fault is a failed acquisition that was caused by a failure, and it carries its text. -/
structure Fault.Surfaces (e : Fault) (f : Failure) : Prop where
  family : e.family? = some .acquisition
  cause : e.cause? = some f
  text : f.text.toList <:+: e.message.toList

namespace Fault

/-- A message that ends in a text. -/
theorem infix_message (before text : String) : text.toList <:+: (before ++ text).toList := by
  rw [String.toList_append]
  exact (List.suffix_append _ _).isInfix

theorem notOpened_surfaces (f : Failure) : (notOpened f).Surfaces f :=
  ⟨rfl, rfl, infix_message _ _⟩

theorem clusterUnreachable_surfaces (seeds : String) (f : Failure) :
    (clusterUnreachable seeds f).Surfaces f :=
  ⟨rfl, rfl, infix_message _ _⟩

/-- A failure that is passed on as it is tells of nothing. -/
theorem not_surfaces_passedOn (g f : Failure) : ¬(passedOn g).Surfaces f := by
  intro h
  cases h.family

end Fault

/-- The failure that meets whoever opens some clients one after another, if one does. -/
def Remote.refusalWithin (request : ClientRequest) : Nat → Remote → Option Failure
  | 0, _ => none
  | n + 1, r => match r.openClient request with
    | (.error f, _) => some f
    | (.ok _, r) => refusalWithin request n r

/-! ## Operations that need clients -/

namespace Act

variable {α β : Type}

/-- An operation that comes to a value without asking anything of the remote side. -/
def Gives (x : Act World α) (a : α) : Prop :=
  ∀ w, ∃ w', x.run w = (.ok a, w') ∧ w'.remote = w.remote

theorem Gives.pure (a : α) : Gives (Pure.pure a) a := fun w => ⟨w, rfl, rfl⟩

theorem Gives.lift {x : Except Fault α} {a : α} (h : x = .ok a) : Gives (liftM x) a := by
  subst h
  exact fun w => ⟨w, rfl, rfl⟩

theorem Gives.bind {x : Act World β} {g : β → Act World α} {b : β} {a : α} (hx : x.Gives b)
    (hg : (g b).Gives a) : (x >>= g).Gives a := by
  intro w
  obtain ⟨w₁, hr, hw⟩ := hx w
  obtain ⟨w₂, hr', hw'⟩ := hg w₁
  refine ⟨w₂, ?_, hw'.trans hw⟩
  rw [run_bind, hr]
  exact hr'

theorem Gives.mapM {f : β → Act World α} {bs : List β} {as : List α}
    (h : List.Forall₂ (fun b a => (f b).Gives a) bs as) : (bs.mapM f).Gives as := by
  induction h with
  | nil => exact .pure []
  | cons hb _ ih =>
    rw [List.mapM_cons]
    exact .bind hb (.bind ih (.pure _))

/-- An operation that opens some clients. It ends in the fault that is told of the first one that is
refused, and otherwise comes to what is wanted. -/
def Opens (request : ClientRequest) (n : Nat) (told : Failure → Fault)
    (wanted : Except Fault α → Prop) (x : Act World α) : Prop :=
  ∀ w : World, match w.remote.refusalWithin request n with
    | some f => (x.run w).1 = .error (told f)
    | none => wanted (x.run w).1

variable {request : ClientRequest} {n : Nat} {told : Failure → Fault}
  {wanted : Except Fault α → Prop}

theorem Opens.after {x : Act World β} {g : β → Act World α} {b : β} (hx : x.Gives b)
    (hg : (g b).Opens request n told wanted) : (x >>= g).Opens request n told wanted := by
  intro w
  obtain ⟨w₁, hr, hw⟩ := hx w
  have h := hg w₁
  rw [hw] at h
  rw [run_bind, hr]
  exact h

theorem Opens.bind {made : Except Fault β → Prop} {x : Act World β} {g : β → Act World α}
    (hx : x.Opens request n told made) (he : ∀ f, made (.error f) → wanted (.error f))
    (hg : ∀ b, made (.ok b) → ∀ w, wanted ((g b).run w).1) :
    (x >>= g).Opens request n told wanted := by
  intro w
  have h := hx w
  rw [run_bind]
  cases hr : x.run w with
  | mk r w₁ =>
    rw [hr] at h
    cases hf : w.remote.refusalWithin request n with
    | some f =>
      rw [hf] at h
      cases h
      rfl
    | none =>
      rw [hf] at h
      cases r with
      | error f => exact he f h
      | ok b => exact hg b h w₁

end Act

namespace Connector

open Act

variable {k : Connector} {hosts : String} {password : Value} {options : Options}

theorem note_gives (n : Notice) : (note n).Gives () := fun w => ⟨w.note n, rfl, rfl⟩

theorem noteDatabase_gives {n? : Option Int}
    (h : (n?.all fun n => Fault.isShowable n) = true) : (noteDatabase n?).Gives () := by
  unfold noteDatabase
  split
  · split
    · rw [if_pos (Option.all_some.symm.trans h)]
      exact note_gives _
    · exact .pure ()
  · exact .pure ()

theorem resolve_gives {as : List ServerAddress} (hr : ServerAddress.resolve hosts = .ok as) :
    (resolve hosts).Gives as :=
  .bind (.lift hr) (.bind (note_gives _) (.pure _))

theorem transport_gives {a : ServerAddress} {t : Transport}
    (ht : Transport.build a.host a.port password options = .ok t) :
    (transport a password options).Gives t := by
  refine .bind (.lift ht) ?_
  dsimp only
  split
  · exact .bind (note_gives _) (.pure _)
  · exact .pure _

/-- If one address can be configured, so can all. -/
theorem transports_gives {a : ServerAddress} {t : Transport}
    (ht : Transport.build a.host a.port password options = .ok t) (as : List ServerAddress) :
    (as.mapM fun a => transport a password options).Gives
      (as.map fun b => { t with host := b.host, port := b.port }) := by
  refine .mapM (List.forall₂_map_right_iff.mpr (List.forall₂_same.mpr fun b _ => ?_))
  exact transport_gives (Transport.build_elsewhere ht b.host b.port)

/-- A client is asked for, and what is done with the answer asks for no other one. -/
theorem openClient_opens {α : Type} {request : ClientRequest} {told : Failure → Fault}
    {wanted : Except Fault α → Prop} {g : Except Failure ClientId → Act World α}
    (hd : ∀ c w, wanted ((g (.ok c)).run w).1)
    (hf : ∀ f w, ((g (.error f)).run w).1 = .error (told f)) :
    (openClient request >>= g).Opens request 1 told wanted := by
  intro w
  have hr : (openClient request).run w = (.ok (w.remote.openClient request).1,
    { w with remote := (w.remote.openClient request).2 }) := rfl
  rw [run_bind, hr, Remote.refusalWithin]
  generalize w.remote.openClient request = answered
  obtain ⟨answer, r⟩ := answered
  cases answer with
  | ok c => exact hd c _
  | error f => exact hf f _

/-- What comes to a source that is open for good. -/
def Direct (r : Except Fault ClientSource) : Prop := ∃ c, r = .ok (.direct c)

/-- The failure to open a client for good is passed on, unless the client is for a cluster and
reports it. -/
def refused (topology : Topology) (as : List ServerAddress) (f : Failure) : Fault :=
  match topology with
  | .standalone => .passedOn f
  | .cluster =>
    if f.kind.isClientError then .clusterUnreachable (ServerAddress.renderAll as) f
    else .passedOn f

theorem standalone_opens (hk : k.pooling = false) {a : ServerAddress} {t : Transport}
    (ht : Transport.build a.host a.port password options = .ok t) (hs : t.isShowable = true) :
    (k.standalone a password options).Opens (.standalone (t.endpointKeywords k.codec)) 1
      (refused .standalone [a]) Direct := by
  obtain ⟨text, hd⟩ := Transport.describe_of_isShowable hs
  refine .after (transport_gives ht) (.after (.lift hd) (.after (note_gives _) ?_))
  rw [if_neg (by rw [hk]; decide)]
  exact openClient_opens (fun c w => ⟨c, rfl⟩) fun f w => rfl

theorem clusterSource_opens (hk : k.pooling = false) {as : List ServerAddress}
    (hs : ∀ a ∈ as, Fault.isShowable a.port = true) (request : ClientRequest) :
    (k.clusterSource as request).Opens request 1 (refused .cluster as) Direct := by
  have hall : ServerAddress.showAll as = .ok (ServerAddress.renderAll as) :=
    if_pos (List.all_eq_true.mpr hs)
  unfold clusterSource
  rw [if_neg (by rw [hk]; decide)]
  refine openClient_opens (fun c w => ⟨c, rfl⟩) fun f w => ?_
  simp only [refused, hall]
  split <;> rfl

/-- All that is done before cluster clients are opened asks nothing of the remote side. -/
theorem cluster_after {has : Act World ClientSource → Prop}
    (after : ∀ {β : Type} {x : Act World β} {g : β → Act World ClientSource} {b : β},
      x.Gives b → has (g b) → has (x >>= g))
    {a : ServerAddress} {rest : List ServerAddress} {t : Transport}
    (ht : Transport.build a.host a.port password options = .ok t) (hshow : t.isShowable = true)
    (hs : has (k.clusterSource (a :: rest) (.cluster (t.sharedKeywords k.codec)
      ((a :: rest).map fun a => (a.host, a.port))))) :
    has (k.cluster (a :: rest) password options) := by
  -- all addresses are configured as the first one is, so nothing is left to fail
  have hts : ((a :: rest).mapM fun a => transport a password options).Gives
      ({ t with host := a.host, port := a.port } ::
        rest.map fun b => { t with host := b.host, port := b.port }) :=
    transports_gives ht (a :: rest)
  refine after hts ?_
  have hnodes : (rest.map fun b => { t with host := b.host, port := b.port }).map
      (fun t => (t.host, t.port)) = rest.map fun a => (a.host, a.port) := by
    rw [List.map_map]
    rfl
  dsimp only
  rw [List.map_cons, hnodes]
  exact after (noteDatabase_gives (Bool.and_eq_true_iff.mp hshow).2) hs

variable {topology : Topology} {as : List ServerAddress} {request : ClientRequest}

/-- A source for a pool opens nothing. -/
theorem connect_gives (hk : k.pooling = true) (hr : ServerAddress.resolve hosts = .ok as)
    (hw : ClientRequest.planned? topology k.pooling k.codec hosts password options = some request) :
    (k.connect topology as password options).Gives (.supplier request) := by
  rcases ClientRequest.planned_cases hw with
    ⟨a, t, rfl, hr', ht, hs, rfl⟩ | ⟨a, rest, t, rfl, hr', ht, hs, rfl⟩
  · cases hr.symm.trans hr'
    obtain ⟨text, hd⟩ := Transport.describe_of_isShowable hs
    refine .bind (transport_gives ht) (.bind (.lift hd) (.bind (note_gives _) ?_))
    rw [if_pos hk, if_pos hk]
    exact .pure _
  · cases hr.symm.trans hr'
    refine @cluster_after k password options (·.Gives _) .bind _ _ _ ht hs ?_
    unfold clusterSource
    rw [if_pos hk]
    exact .pure _

/-- Any other source opens one client. -/
theorem connect_opens (hk : k.pooling = false) (hr : ServerAddress.resolve hosts = .ok as)
    (hw : ClientRequest.planned? topology k.pooling k.codec hosts password options = some request) :
    (k.connect topology as password options).Opens request 1 (refused topology as) Direct := by
  rcases ClientRequest.planned_cases hw with
    ⟨a, t, rfl, hr', ht, hs, rfl⟩ | ⟨a, rest, t, rfl, hr', ht, hs, rfl⟩
  · cases hr.symm.trans hr'
    rw [hk]
    exact standalone_opens hk ht hs
  · cases hr.symm.trans hr'
    exact cluster_after .after ht hs
      (clusterSource_opens hk (ServerAddress.isShowable_of_resolve hr) _)

end Connector

/-! ## Initializations -/

/-- A pool that cannot be stocked is not opened. -/
theorem ConnectionPool.stock_opens (request : ClientRequest) (policy : Pool.Policy) (n : Nat)
    (idle : List Pool.Conn) (w : World) :
    match w.remote.refusalWithin request n with
    | some f => (Pool.stock (surroundings request) policy n idle w).1 = .error (.notOpened f)
    | none => ∃ opened, (Pool.stock (surroundings request) policy n idle w).1 = .ok opened := by
  induction n generalizing idle w with
  | zero => exact ⟨idle, rfl⟩
  | succ n ih =>
    simp only [Pool.stock, surroundings_supply, Remote.refusalWithin]
    generalize w.remote.openClient request = answered
    obtain ⟨answer, r⟩ := answered
    cases answer with
    | error f => rfl
    | ok c =>
      have h := ih (c :: idle) ((surroundings request).report [.connectionOpened policy.name]
        { w with remote := r })
      rw [surroundings_report] at h
      exact h

/-- What the opening of a pool comes to whose connections are all opened. -/
def Pool.Limits.outcome (l : Pool.Limits) : Except Fault Unit :=
  if l.isShowable then .ok () else .error .integerTooLong

/-- What an initialization comes to whose clients are all opened. -/
def ManagerPlan.outcome (plan : ManagerPlan) : Except Fault Unit :=
  if plan.pooling then plan.limits.outcome else .ok ()

/-- How many clients an initialization opens. -/
def ManagerPlan.openings (plan : ManagerPlan) : Nat :=
  if plan.pooling then plan.limits.minIdle.toNat else 1

/-- What an initialization makes of the failure to open a client. -/
def ManagerPlan.refused (plan : ManagerPlan) (as : List ServerAddress) : Failure → Fault :=
  if plan.pooling then .notOpened else Connector.refused plan.topology as

/-- Failures that an initialization with this plan turns into a failed acquisition: those of clients
that a pool opens, and those that a cluster client reports as its own. -/
def ManagerPlan.Wraps (plan : ManagerPlan) (f : Failure) : Prop :=
  plan.pooling = true ∨ plan.topology = .cluster ∧ f.kind.isClientError = true

namespace ManagerPlan

variable {plan : ManagerPlan} {f : Failure}

theorem refused_surfaces (h : plan.Wraps f) (as : List ServerAddress) :
    (plan.refused as f).Surfaces f := by
  unfold refused
  by_cases hp : plan.pooling = true
  · rw [if_pos hp]
    exact Fault.notOpened_surfaces f
  · obtain ⟨ht, hf⟩ := h.resolve_left hp
    rw [if_neg hp, ht, Connector.refused, if_pos hf]
    exact Fault.clusterUnreachable_surfaces _ f

/-- All other failures are passed on. -/
theorem refused_raw (h : ¬plan.Wraps f) (as : List ServerAddress) :
    plan.refused as f = .passedOn f := by
  have hp : ¬plan.pooling = true := fun hp => h (.inl hp)
  rw [refused, if_neg hp]
  cases ht : plan.topology with
  | standalone => rfl
  | cluster =>
    have hf : ¬f.kind.isClientError = true := fun hf => h (.inr ⟨ht, hf⟩)
    rw [Connector.refused, if_neg hf]

theorem refused_surfaces_iff (as : List ServerAddress) :
    (plan.refused as f).Surfaces f ↔ plan.Wraps f := by
  refine ⟨fun hs => ?_, fun h => refused_surfaces h as⟩
  by_contra h
  rw [refused_raw h as] at hs
  exact Fault.not_surfaces_passedOn f f hs

end ManagerPlan

namespace Manager

open Act
open Event (openedIn closedIn)

variable {plan : ManagerPlan} {hosts : String} {password : Value} {options : Options}
  {request : ClientRequest} {as : List ServerAddress}

theorem facadeOf_opens : (facadeOf plan (.supplier request)).Opens request
    plan.limits.minIdle.toNat .notOpened fun r => r.map (fun _ => ()) = plan.limits.outcome := by
  intro w
  have h := ConnectionPool.stock_opens request ⟨poolName plan, plan.limits⟩
    plan.limits.minIdle.toNat [] w
  obtain ⟨opened, w₁, ho⟩ : ∃ opened w₁, Pool.openPool (ConnectionPool.surroundings request)
      ⟨poolName plan, plan.limits⟩ w = (opened, w₁) := ⟨_, _, rfl⟩
  rw [facadeOf_run ho]
  cases hf : w.remote.refusalWithin request plan.limits.minIdle.toNat with
  | some f =>
    rw [hf] at h
    cases Pool.opening_of_openPool ho with
    | notStocked hs =>
      rw [hs] at h
      cases h
      rfl
    | opened hs | notReported hs =>
      rw [hs] at h
      cases h
  | none =>
    rw [hf] at h
    obtain ⟨idle, h⟩ := h
    cases Pool.opening_of_openPool ho with
    | notStocked hs =>
      rw [hs] at h
      cases h
    | opened _ hl => exact (if_pos hl).symm
    | notReported _ hl => exact (if_neg (by simp [hl])).symm

/-- A single node has a single address. -/
theorem Plans.addresses (hw : Plans plan hosts password options request)
    (hr : ServerAddress.resolve hosts = .ok as) :
    ¬(plan.topology = .standalone ∧ 1 < as.length) := by
  rintro ⟨ht, hlen⟩
  rcases ClientRequest.planned_cases hw with ⟨a, t, -, hr', -, -⟩ | ⟨a, rest, t, ht', -⟩
  · cases hr.symm.trans hr'
    exact absurd hlen (Nat.lt_irrefl 1)
  · cases ht.symm.trans ht'

/-- An initialization of which it is planned what clients it asks for opens as many as the plan
says. -/
theorem establish_opens (hr : ServerAddress.resolve hosts = .ok as)
    (hw : Plans plan hosts password options request) :
    (establish plan hosts password options).Opens request plan.openings (plan.refused as)
      fun r => r.map (fun _ => ()) = plan.outcome := by
  refine .after (Connector.resolve_gives hr) ?_
  dsimp only
  rw [if_neg (hw.addresses hr)]
  by_cases hk : plan.pooling = true
  · rw [ManagerPlan.openings, ManagerPlan.refused, ManagerPlan.outcome, if_pos hk, if_pos hk,
      if_pos hk]
    refine .after (Connector.connect_gives hk hr hw) (.bind facadeOf_opens (fun _ h => h) ?_)
    exact fun facade h w => h
  · rw [ManagerPlan.openings, ManagerPlan.refused, ManagerPlan.outcome, if_neg hk, if_neg hk,
      if_neg hk]
    refine .bind (Connector.connect_opens (Bool.eq_false_iff.mpr hk) hr hw) ?_ ?_
    · rintro f ⟨c, h⟩
      cases h
    · rintro _ ⟨c, h⟩ w
      cases h
      rfl

/-- So does an initialization of a manager that is neither closed nor initialized. -/
theorem init_opens {s : Site} (hc : s.manager.closed = false) (hn : s.manager.facade = none)
    (hr : ServerAddress.resolve hosts = .ok as)
    (hw : Plans s.manager.plan hosts password options request) :
    match s.world.remote.refusalWithin request s.manager.plan.openings with
    | some f => ((init hosts password options).run s).1 =
        .error (s.manager.plan.refused as f)
    | none => ((init hosts password options).run s).1 = s.manager.plan.outcome := by
  have h := establish_opens hr hw s.world
  rw [init_open hosts password options hc hn]
  generalize (establish s.manager.plan hosts password options).run s.world = out at h
  obtain ⟨r, w⟩ := out
  cases hf : s.world.remote.refusalWithin request s.manager.plan.openings with
  | some f =>
    rw [hf] at h
    cases h
    rfl
  | none =>
    rw [hf] at h
    rw [← h]
    cases r <;> rfl

/-- With a pool nothing is asked of the remote side until the pool is opened. -/
theorem establish_unasked (hk : plan.pooling = true) (hr : ServerAddress.resolve hosts = .ok as)
    (hw : Plans plan hosts password options request) (w : World) :
    ∃ w', w'.remote = w.remote ∧ (establish plan hosts password options).run w =
      (facadeOf plan (.supplier request) >>= fun facade =>
        Pure.pure (facade, as.length)).run w' := by
  obtain ⟨w₁, hr₁, hw₁⟩ := Connector.resolve_gives hr w
  obtain ⟨w₂, hr₂, hw₂⟩ := Connector.connect_gives (k := ⟨plan.codec, plan.pooling⟩) hk hr hw w₁
  refine ⟨w₂, hw₂.trans hw₁, ?_⟩
  rw [establish, run_bind, hr₁]
  dsimp only
  rw [if_neg (hw.addresses hr), run_bind, hr₂]

/-- All clients of a pool are opened whose limits cannot be reported: the initialization fails, and
none of them is closed. -/
theorem init_leaves_open {s : Site} (hc : s.manager.closed = false) (hn : s.manager.facade = none)
    (hk : s.manager.plan.pooling = true) (hl : s.manager.plan.limits.isShowable = false)
    (hw : Plans s.manager.plan hosts password options request)
    (hf : s.world.remote.refusalWithin request s.manager.plan.openings = none) :
    ∃ w, (init hosts password options).run s = (.error .integerTooLong, { s with world := w }) ∧
      ∃ news, s.world.remote.Becomes news w.remote ∧ closedIn news = [] ∧
        (openedIn news).length = s.manager.plan.limits.minIdle.toNat := by
  obtain ⟨as, hr⟩ := ClientRequest.resolve_of_planned hw
  obtain ⟨w₁, hremote, hrun⟩ := establish_unasked hk hr hw s.world
  rw [ManagerPlan.openings, if_pos hk, ← hremote] at hf
  have hs := ConnectionPool.stock_opens request ⟨poolName s.manager.plan, s.manager.plan.limits⟩
    s.manager.plan.limits.minIdle.toNat [] w₁
  rw [hf] at hs
  obtain ⟨idle, hs⟩ := hs
  obtain ⟨w₂, hs⟩ : ∃ w₂, Pool.stock (ConnectionPool.surroundings request)
      ⟨poolName s.manager.plan, s.manager.plan.limits⟩ s.manager.plan.limits.minIdle.toNat [] w₁ =
        (.ok idle, w₂) := ⟨_, Prod.ext hs rfl⟩
  obtain ⟨news, hb, hclosed, hopened⟩ := ConnectionPool.stock_becomes hs
  refine ⟨w₂, ?_, news, hremote ▸ hb, hclosed, ?_⟩
  · rw [init_open hosts password options hc hn, hrun, run_bind,
      facadeOf_run (Pool.openPool_of_not_isShowable hl hs)]
    rfl
  · have hperm : idle.Perm (openedIn news) :=
      List.perm_iff_count.mpr fun c => by simpa using hopened c
    rw [← hperm.length_eq]
    exact Pool.stock_ok hs

/-- With nothing given but one address, there is a plan. -/
theorem plans_bare (plan : ManagerPlan) : ∃ request, Plans plan "h:1" .none .absent request := by
  have hs : ({ host := "h", port := 1 } : Transport).isShowable = true := by
    rw [Transport.isShowable, Fault.isShowable_of_lt (by decide)]
    rfl
  unfold Plans
  cases plan.topology with
  | standalone => exact ⟨_, ClientRequest.planned_standalone rfl rfl hs⟩
  | cluster => exact ⟨_, ClientRequest.planned_cluster rfl rfl hs⟩

end Manager
end RedisGateway
