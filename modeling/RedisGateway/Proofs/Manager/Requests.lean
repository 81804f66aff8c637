import RedisGateway.Proofs.Manager.Script
import RedisGateway.Proofs.Transport.Requests

/-!
All clients that a manager opens are opened with one request, at its initialization as well as
whenever its pool needs another one.
-/

namespace RedisGateway

/-- Events that open clients with certain requests only. -/
def Event.Ask (wanted : ClientRequest → Prop) (news : List Event) : Prop :=
  ∀ c q, .opened c q ∈ news → wanted q

namespace Event.Ask

variable {wanted : ClientRequest → Prop} {news more : List Event}

theorem nil : Ask wanted [] := nofun

theorem append (h : Ask wanted news) (h' : Ask wanted more) : Ask wanted (news ++ more) := by
  intro c q hm
  rcases List.mem_append.mp hm with hm | hm
  · exact h c q hm
  · exact h' c q hm

theorem single {e : Event} (h : ∀ c q, e = .opened c q → wanted q) : Ask wanted [e] := by
  intro c q hm
  exact h c q (List.mem_singleton.mp hm).symm

end Event.Ask

open Event (Ask openedIn)

namespace Act

variable {α β : Type} {fits : Except Fault α → List Event → Prop}

/-- After an operation that causes no event and comes to something known. -/
theorem Tells.knowing {known : β → Prop} {x : Act World β} {g : β → Act World α} (hx : x.Still)
    (hy : x.Yields known) (he : ∀ f, fits (.error f) [])
    (hg : ∀ b, known b → Tells fits (g b)) : Tells fits (x >>= g) := by
  intro w
  obtain ⟨news, hb, rfl⟩ := hx w
  rw [run_bind]
  cases hr : x.run w with
  | mk r w₁ =>
    rw [hr] at hb
    cases r with
    | error f => exact ⟨[], hb, he f⟩
    | ok b =>
      obtain ⟨more, hb', hf⟩ := hg b (hy w b w₁ hr) w₁
      exact ⟨more, List.append_nil more ▸ hb.trans hb', hf⟩

theorem Tells.weaken {told : Except Fault α → List Event → Prop} {x : Act World α}
    (hx : Tells told x) (h : ∀ r news, told r news → fits r news) : Tells fits x := by
  intro w
  obtain ⟨news, hb, ht⟩ := hx w
  exact ⟨news, hb, h _ _ ht⟩

theorem lift_yields (x : Except Fault α) : (liftM x : Act World α).Yields (x = .ok ·) := by
  intro w a w' hr
  cases x <;> cases hr
  rfl

end Act

namespace Connector

open Act

variable {k : Connector} {hosts : String} {password : Value} {options : Options}
  {wanted : ClientRequest → Prop}

theorem resolve_yields : (resolve hosts).Yields (ServerAddress.resolve hosts = .ok ·) := by
  intro w addresses w' hr
  obtain ⟨as, w₁, hl, hr⟩ := of_bind hr
  obtain ⟨_, _, _, hr⟩ := of_bind hr
  cases hr
  exact lift_yields _ _ _ _ hl

theorem transport_yields (a : ServerAddress) : (transport a password options).Yields
    (Transport.build a.host a.port password options = .ok ·) := by
  intro w t w' hr
  obtain ⟨t', w₁, hl, hr⟩ := of_bind hr
  have ht : t' = t := by
    dsimp only at hr
    split at hr
    · obtain ⟨_, _, _, hr⟩ := of_bind hr
      cases hr
      rfl
    · cases hr
      rfl
  exact ht ▸ lift_yields _ _ _ _ hl

/-- The configurations of several addresses are those of each. -/
theorem transports_yields (as : List ServerAddress) :
    (as.mapM fun a => transport a password options).Yields
      (List.Forall₂ (fun a t => Transport.build a.host a.port password options = .ok t) as) := by
  induction as with
  | nil =>
    intro w ts w' hr
    cases hr
    exact .nil
  | cons a as ih =>
    rw [List.mapM_cons]
    intro w ts w' hr
    obtain ⟨t, w₁, ht, hr⟩ := of_bind hr
    obtain ⟨ts', w₂, hts, hr⟩ := of_bind hr
    cases hr
    exact .cons (transport_yields a _ _ _ ht) (ih _ _ _ hts)

theorem describe_yields (t : Transport) :
    (liftM t.describe : Act World String).Yields fun _ => t.isShowable = true := by
  intro w text w' hr
  have hd := lift_yields _ _ _ _ hr
  by_contra hs
  cases (Transport.describe_of_not_isShowable (Bool.eq_false_iff.mpr hs)).symm.trans hd

/-- A database index that is reported or left alone can be shown. -/
theorem noteDatabase_yields (n? : Option Int) :
    (noteDatabase n?).Yields fun _ => (n?.all fun n => Fault.isShowable n) = true := by
  intro w u w' hr
  unfold noteDatabase at hr
  split at hr
  · rename_i n
    split at hr
    · split at hr
      · assumption
      · cases hr
    · rename_i hn
      rw [Classical.not_not.mp hn]
      exact Fault.isShowable_of_lt (by decide)
  · rfl

/-- Configurations name the addresses that they are for. -/
theorem nodes_of_built {as : List ServerAddress} {ts : List Transport}
    (h : List.Forall₂ (fun a t => Transport.build a.host a.port password options = .ok t) as ts) :
    ts.map (fun t => (t.host, t.port)) = as.map fun a => (a.host, a.port) := by
  induction h with
  | nil => rfl
  | cons ht _ ih =>
    obtain ⟨_, -, rfl⟩ := Transport.build_ok ht
    rw [List.map_cons, List.map_cons, ih]

/-- What a connector comes to, with the events that it causes, asks for certain clients only, now
and later. -/
def Sourced (wanted : ClientRequest → Prop) (r : Except Fault ClientSource)
    (news : List Event) : Prop :=
  Ask wanted news ∧ ∀ request, r = .ok (.supplier request) → wanted request

theorem sourced_error (f : Fault) : Sourced wanted (.error f) [] := ⟨.nil, nofun⟩

theorem sourced_supplier {request : ClientRequest} (h : wanted request) :
    Sourced wanted (.ok (.supplier request)) [] := by
  refine ⟨.nil, fun q hq => ?_⟩
  cases hq
  exact h

/-- A client that is wanted is opened for good. -/
theorem client_sourced {request : ClientRequest} (hw : wanted request)
    {g : Except Failure ClientId → Act World ClientSource}
    (hd : ∀ c, ∃ n, g (.ok c) = note n >>= fun _ => Pure.pure (.direct c))
    (hf : ∀ f, (g (.error f)).Tells (Sourced wanted)) :
    (openClient request >>= g).Tells (Sourced wanted) := by
  refine .bind (openClient_tells request) (fun f news h => ?_) fun b news h => ?_
  · rcases h with ⟨c, h, -⟩ | ⟨e, h, -⟩ <;> cases h
  · rcases h with ⟨c, h, rfl⟩ | ⟨e, h, rfl⟩
    · cases h
      obtain ⟨n, hn⟩ := hd c
      rw [hn]
      refine fun w => ⟨[], .refl w.remote, .single fun c q he => ?_, nofun⟩
      cases he
      exact hw
    · cases h
      simpa using hf e

theorem standalone_sourced {a : ServerAddress} (hr : ServerAddress.resolve hosts = .ok [a]) :
    (k.standalone a password options).Tells (Sourced fun q =>
      ClientRequest.planned? .standalone k.pooling k.codec hosts password options = some q) := by
  refine .knowing (transport_still a password options) (transport_yields a) sourced_error
    fun t ht => ?_
  refine .knowing (.lift _) (describe_yields t) sourced_error fun _ hs => ?_
  refine .after (note_still _) sourced_error fun _ => ?_
  have hplan := @ClientRequest.planned_standalone k.pooling k.codec _ _ _ _ _ hr ht hs
  by_cases hk : k.pooling = true
  · rw [if_pos hk] at hplan ⊢
    exact .pure (sourced_supplier hplan)
  · rw [if_neg hk] at hplan ⊢
    exact client_sourced hplan (fun _ => ⟨_, rfl⟩) fun _ => .throw (sourced_error _)

theorem clusterSource_sourced (as : List ServerAddress) {request : ClientRequest}
    (hw : wanted request) : (k.clusterSource as request).Tells (Sourced wanted) := by
  unfold clusterSource
  by_cases hk : k.pooling = true
  · rw [if_pos hk]
    exact .pure (sourced_supplier hw)
  · rw [if_neg hk]
    refine client_sourced hw (fun _ => ⟨_, rfl⟩) fun f => ?_
    dsimp only
    split
    · exact .after (.lift _) sourced_error fun _ =>
        .after (note_still _) sourced_error fun _ => .throw (sourced_error _)
    · exact .throw (sourced_error _)

theorem cluster_sourced {as : List ServerAddress} (hr : ServerAddress.resolve hosts = .ok as) :
    (k.cluster as password options).Tells (Sourced fun q =>
      ClientRequest.planned? .cluster k.pooling k.codec hosts password options = some q) := by
  refine .knowing (.mapM (fun a => transport_still a password options) _) (transports_yields as)
    sourced_error fun ts hts => ?_
  have hnodes := nodes_of_built hts
  cases hts with
  | nil => exact .throw (sourced_error _)
  | @cons a t as ts ht hts =>
    refine .knowing (noteDatabase_still _) (noteDatabase_yields _) sourced_error fun _ hdb => ?_
    have hs : t.isShowable = true := by
      obtain ⟨timeout, -, hb⟩ := Transport.build_ok ht
      have hport : t.port = a.port := by rw [hb]
      rw [Transport.isShowable, hport, hdb,
          ServerAddress.isShowable_of_resolve hr a List.mem_cons_self]
      rfl
    have hplan := @ClientRequest.planned_cluster k.pooling k.codec _ _ _ _ _ _ hr ht hs
    rw [← hnodes] at hplan
    exact clusterSource_sourced _ hplan

/-- A connector asks for the clients that are planned. -/
theorem connect_sourced {topology : Topology} {as : List ServerAddress}
    (hr : ServerAddress.resolve hosts = .ok as) (hone : topology = .standalone → as.length ≤ 1) :
    (k.connect topology as password options).Tells (Sourced fun q =>
      ClientRequest.planned? topology k.pooling k.codec hosts password options = some q) := by
  cases topology with
  | cluster => exact cluster_sourced hr
  | standalone =>
    match as, hr, hone rfl with
    | [], _, _ => exact .throw (sourced_error _)
    | [a], hr, _ => exact standalone_sourced hr

end Connector

namespace ConnectionPool

variable {request : ClientRequest} {policy : Pool.Policy} {w w' : World}

theorem closeAll_asks (wanted : ClientRequest → Prop) (cs : List Pool.Conn) (w : World) :
    ∃ news, (Pool.closeAll (surroundings request) cs w).remote.events = news ++ w.remote.events ∧
      Ask wanted news := by
  obtain ⟨news, hb, ho, -⟩ := @closeAll_becomes request cs w
  refine ⟨news, hb.events, fun c q hm => ?_⟩
  have : c ∈ Event.openedIn news := List.mem_filterMap.mpr ⟨_, hm, rfl⟩
  rw [ho] at this
  cases this

/-- A pool stocks itself with clients that its request asks for. -/
theorem stock_asks {n : Nat} {idle : List Pool.Conn} {res : Except Fault (List Pool.Conn)}
    (h : Pool.stock (surroundings request) policy n idle w = (res, w')) :
    ∃ news, w'.remote.events = news ++ w.remote.events ∧ Ask (· = request) news := by
  induction n generalizing idle w with
  | zero =>
    cases h
    exact ⟨[], rfl, .nil⟩
  | succ n ih =>
    simp only [Pool.stock, surroundings_supply] at h
    rcases Remote.openClient_becomes request w.remote with ⟨r, hr, hb⟩ | ⟨f, r, hr, hb⟩
    · simp only [hr] at h
      obtain ⟨news, he, hn⟩ := ih h
      rw [surroundings_report, show r.events = _ from hb.events] at he
      refine ⟨news ++ [.opened w.remote.opened request], by simpa using he, hn.append ?_⟩
      refine .single fun c q he => ?_
      cases he
      rfl
    · simp only [hr] at h
      cases h
      obtain ⟨news, he, hn⟩ := @closeAll_asks request (· = request) idle.reverse
        ((surroundings request).report [.poolNotOpened policy.name f] { w with remote := r })
      rw [surroundings_report, show r.events = _ from hb.events] at he
      exact ⟨news, he, hn⟩

theorem openPool_asks {res : Except Fault Pool.Core}
    (h : Pool.openPool (surroundings request) policy w = (res, w')) :
    ∃ news, w'.remote.events = news ++ w.remote.events ∧ Ask (· = request) news := by
  cases Pool.opening_of_openPool h with
  | notStocked hs => exact stock_asks hs
  | opened hs =>
    rw [surroundings_report]
    exact stock_asks hs
  | notReported hs => exact stock_asks hs

end ConnectionPool

namespace Manager

open Act

variable {plan : ManagerPlan} {hosts : String} {password : Value} {options : Options}
  {wanted : ClientRequest → Prop}

/-- The request that a manager with this plan opens its clients with. -/
abbrev Plans (plan : ManagerPlan) (hosts : String) (password : Value) (options : Options)
    (request : ClientRequest) : Prop :=
  ClientRequest.planned? plan.topology plan.pooling plan.codec hosts password options = some request

/-- An initialization, with the events that it causes, asks for certain clients only, and so does
the pool that it leaves. -/
def Furnished (wanted : ClientRequest → Prop) (r : Except Fault (Facade × Nat))
    (news : List Event) : Prop :=
  Ask wanted news ∧ ∀ made, r = .ok made → ∀ p, made.1.pool? = some p → wanted p.request

theorem furnished_error (f : Fault) : Furnished wanted (.error f) [] := by
  refine ⟨.nil, fun made h => ?_⟩
  cases h

theorem facadeOf_furnished {request : ClientRequest} (hw : wanted request) (n : Nat) :
    (facadeOf plan (.supplier request) >>= fun facade => Pure.pure (facade, n)).Tells
      (Furnished wanted) := by
  intro w
  obtain ⟨opened, w₁, ho⟩ : ∃ opened w₁, Pool.openPool (ConnectionPool.surroundings request)
      ⟨poolName plan, plan.limits⟩ w = (opened, w₁) := ⟨_, _, rfl⟩
  have hr : (facadeOf plan (.supplier request) >>= fun facade => Pure.pure (facade, n)).run w =
      (opened.map fun core =>
        (⟨plan.topology, .pooled ⟨⟨poolName plan, plan.limits⟩, request, core⟩⟩, n), w₁) := by
    rw [run_bind, facadeOf_run ho]
    cases opened <;> rfl
  rw [hr]
  obtain ⟨news, hb, -⟩ := ConnectionPool.openPool_becomes ho
  obtain ⟨news', he, hn⟩ := ConnectionPool.openPool_asks ho
  cases List.append_cancel_right (hb.events.symm.trans he)
  refine ⟨news, hb, fun c q hm => hn c q hm ▸ hw, fun made hm p hp => ?_⟩
  cases opened <;> cases hm
  cases hp
  exact hw

/-- An initialization asks for the clients that are planned. -/
theorem establish_furnished : (establish plan hosts password options).Tells
    (Furnished (Plans plan hosts password options)) := by
  refine .knowing (Connector.resolve_still hosts) Connector.resolve_yields furnished_error
    fun as hr => ?_
  dsimp only
  split
  · exact .thrown (furnished_error _)
  · rename_i hone
    refine .bind (Connector.connect_sourced hr fun ht => ?_)
      (fun f news h => ⟨h.1, (furnished_error f).2⟩) fun source news h => ?_
    · exact Nat.le_of_not_lt fun hl => hone ⟨ht, hl⟩
    · cases source with
      | direct c =>
        refine fun w => ⟨[], .refl w.remote, h.1, fun made hm p hp => ?_⟩
        cases hm
        cases hp
      | supplier request =>
        have hw : Plans plan hosts password options request := h.2 request rfl
        refine (facadeOf_furnished hw as.length).weaken fun r more hf => ?_
        exact ⟨hf.1.append h.1, hf.2⟩

/-- An initialization that succeeds asks for one kind of client, and so does the pool, if it leaves
one. -/
theorem init_furnished {s s' : Site}
    (h : (init hosts password options).run s = (.ok (), s')) :
    ∃ request f news, Plans s.manager.plan hosts password options request ∧
      s'.manager.facade = some f ∧ s'.world.remote.events = news ++ s.world.remote.events ∧
      Ask (· = request) news ∧ ∀ p, f.pool? = some p → p.request = request := by
  rcases init_run hosts password options s with ⟨f, hr⟩ | ⟨-, -, hr⟩
  · cases h.symm.trans hr
  · obtain ⟨news, hb, ha, hp⟩ :=
      @establish_furnished s.manager.plan hosts password options s.world
    obtain ⟨news', hb', he⟩ := @establish_tells s.manager.plan hosts password options s.world
    cases List.append_cancel_right (hb'.events.symm.trans hb.events)
    rw [hr] at h
    generalize (establish s.manager.plan hosts password options).run s.world = out at h hb hp he
    obtain ⟨made, w⟩ := out
    cases made with
    | error f => cases h
    | ok made =>
      obtain ⟨request, hw⟩ : ∃ request, Plans s.manager.plan hosts password options request := by
        cases he with
        | direct => exact ⟨_, ha _ _ List.mem_cons_self⟩
        | pooled => exact ⟨_, hp _ rfl _ rfl⟩
      -- there is no other one
      have only : ∀ q, Plans s.manager.plan hosts password options q → q = request :=
        fun q hq => Option.some.inj (hq.symm.trans hw)
      cases h
      exact ⟨request, made.1, news, hw, rfl, hb.events, fun c q hm => only q (ha c q hm),
        fun p hf => only _ (hp _ rfl p hf)⟩

/-- A manager that was initialized is not initialized again. -/
theorem init_again {s s' : Site} {r : Except Fault Unit} {f : Facade}
    (hf : s.manager.facade = some f) (h : (init hosts password options).run s = (r, s')) :
    s' = s ∧ ∃ fault, r = .error fault := by
  rcases init_run hosts password options s with ⟨fault, hr⟩ | ⟨-, hn, -⟩
  · cases h.symm.trans hr
    exact ⟨rfl, fault, rfl⟩
  · cases hf.symm.trans hn

end Manager

/-- A method call that ended well and returned nothing. -/
def Stage.isDone : Stage → Bool
  | .ended (.done (.ok _)) => true
  | _ => false

theorem Stage.eq_of_isDone {stage : Stage} (h : stage.isDone = true) :
    stage = .ended (.done (.ok ())) := by
  unfold isDone at h
  split at h
  · rfl
  · cases h

namespace ManagerSystem

variable {plan : ManagerPlan} {rule : Rule} {o o₁ o' : ManagerSystem} {h : Happening}
  {wanted : ClientRequest → Prop}

/-- Since some events the manager has asked for certain clients only, and its pool goes on so. -/
structure Asking (wanted : ClientRequest → Prop) (before : List Event)
    (o : ManagerSystem) : Prop where
  made : ∃ f, o.manager.facade = some f
  pool : ∀ p, o.manager.pool? = some p → wanted p.request
  since : ∃ news, o.events = news ++ before ∧ Ask wanted news

theorem Asking.tell {before news : List Event} (hk : o.Asking wanted before)
    (hm : o'.manager.facade = o.manager.facade) (he : o'.events = news ++ o.events)
    (hn : Ask wanted news) : o'.Asking wanted before := by
  obtain ⟨more, hs, ha⟩ := hk.since
  refine ⟨by rw [hm]; exact hk.made, fun p hp => hk.pool p ?_, news ++ more, ?_, hn.append ha⟩
  · rwa [Manager.pool?, hm] at hp
  · rw [he, hs, List.append_assoc]

/-- A pool opens what its request asks for. -/
theorem newsOf_asks {p : ConnectionPool} {s : Pool.TrackedSystem} {e : Pool.Happening}
    (hp : wanted p.request) : Ask wanted (newsOf p s e) := by
  unfold newsOf
  split
  · refine .single fun c q he => ?_
    cases he
    exact hp
  · split
    · exact .single nofun
    · exact .nil
  · split
    · exact .single nofun
    · exact .nil
  · exact .nil

theorem Step.asking {before : List Event} (st : Step o h o') (hk : o.Asking wanted before) :
    o'.Asking wanted before := by
  obtain ⟨f, hf⟩ := hk.made
  have hf' : o'.manager.facade = o.manager.facade := (st.facade hf).trans hf.symm
  cases st with
  | establish hv hm hc he hi =>
    obtain ⟨rfl, -⟩ := Manager.init_again hf hi
    exact hk.tell hf' (he.trans (List.nil_append _).symm) .nil
  | inside hp hh hc st => exact hk.tell hf' rfl (newsOf_asks (hk.pool _ hp))
  | sent | hungUp => exact hk.tell hf' rfl (.single nofun)
  | _ => exact hk.tell hf' rfl .nil

theorem Leads.asking {before : List Event} (hl : Leads rule o o') (hk : o.Asking wanted before) :
    o'.Asking wanted before :=
  hl.keeps hk fun _ st => st.asking

/-- Every client that is opened by an initialization that succeeds and from then on is opened with
one request. It depends on nothing but the topology, the pooling, the codec and what the
initialization was given, and says what was given. -/
theorem clients_opened_alike {v : Nat} {x x₁ : Caller} {w : World} {hosts : String}
    {password : Value} {options : Options} (hr : Reachable plan rule o)
    (hv : o.callers[v]? = some x) (hx : x.stage = .starting (.init hosts password options))
    (st : Step o (.establish v w) o₁) (hv₁ : o₁.callers[v]? = some x₁)
    (hx₁ : x₁.stage = .ended (.done (.ok ()))) (hl : Leads rule o₁ o') :
    ∃ request news, ClientRequest.planned? plan.topology plan.pooling plan.codec hosts password
        options = some request ∧
      request.AsGiven plan.topology plan.pooling plan.codec hosts password options ∧
      o'.events = news ++ o.events ∧ ∀ c q, .opened c q ∈ news → q = request := by
  have hmade := hr.orderly.made
  cases st with
  | @establish _ x' _ hosts' password' options' r s hv' hm hc he hi =>
    cases hv.symm.trans hv'
    rw [hx] at hm
    cases hm
    cases hv₁.symm.trans ((put_caller hv _ v).trans (if_pos rfl))
    cases hx₁
    obtain ⟨request, f, news, hw, hf, hev, ha, hp⟩ := Manager.init_furnished hi
    simp only [hmade, he] at hw hev
    have start : (o.established v x (.ok ()) s).Asking (· = request) o.events := by
      refine ⟨⟨f, hf⟩, fun p hpool => hp p ?_, news, hev, ha⟩
      rwa [Manager.pool?, show (o.established v x (.ok ()) s).manager.facade = _ from hf] at hpool
    obtain ⟨more, hsince, hall⟩ := (hl.asking start).since
    exact ⟨request, more, hw, ClientRequest.asGiven_of_planned hw, hsince, hall⟩

/-- A pool for a cluster opens a client at its initialization, and another one when that one is
lent. Both are opened with one request. -/
theorem clients_opened_alike_of_second_borrower : ∃ plan o o', Reachable plan Unruled o ∧
    o.manager.facade = none ∧ Leads Unruled o o' ∧ (openedIn o'.events).length = 2 ∧
    ∃ request, ∀ c q, .opened c q ∈ o'.events → q = request := by
  let plan : ManagerPlan :=
    { topology := .cluster, pooling := true, limits := { minIdle := 1 } }
  let options : Options := .mapping [("ssl_enabled", .flag true), ("clientName", .text "c")]
  let o := (fresh plan).welcome { method := .init "h:1,g:2" (.text "p") options }
  have ho : Reachable plan Unruled o := .step .refl trivial .arrive
  have hrun : (o.after? (.establish 0 {})).any (fun o₁ =>
      (o₁.callers[0]?.any fun x => x.stage.isDone) &&
      (o₁.play Unruled [.arrive .handle, .look 1, .enter 1, .inside (.turn 0), .arrive .handle,
        .look 2, .enter 2, .inside (.turn 1), .inside (.supplied 1 1)]).any fun o' =>
        (openedIn o'.events).length == 2) = true := by
    decide +kernel
  obtain ⟨o₁, h₁, hrun⟩ := (Option.any_eq_true _ _).mp hrun
  obtain ⟨hx, hrun⟩ := Bool.and_eq_true_iff.mp hrun
  obtain ⟨x, hx, hs⟩ := (Option.any_eq_true _ _).mp hx
  obtain ⟨o', hl, hn⟩ := (Option.any_eq_true _ _).mp hrun
  have st := step_of_after h₁
  obtain ⟨request, news, -, -, he, hq⟩ :=
    clients_opened_alike ho rfl rfl st hx (Stage.eq_of_isDone hs) (leads_of_play hl)
  rw [show o.events = [] from rfl, List.append_nil] at he
  exact ⟨plan, o, o', ho, rfl, .head trivial st (leads_of_play hl), by simpa using hn, request,
    he ▸ hq⟩

end ManagerSystem
end RedisGateway
