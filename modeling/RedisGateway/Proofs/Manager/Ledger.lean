import RedisGateway.Proofs.Manager.Initialization

/-!
What an initialization asks of the remote side. Clients are numbered in the order in which they are
opened, so the events of an operation say which clients it opened; whatever a failing
initialization opened it closes again, each client once.
-/

namespace RedisGateway

/-! ## Clients in a record of events -/

namespace Event

/-- The client that an event opens. -/
def opened? : Event → Option ClientId
  | .opened c _ => some c
  | _ => none

/-- The client that an event closes. -/
def closed? : Event → Option ClientId
  | .closed c => some c
  | _ => none

/-- The clients that events open. -/
def openedIn (es : List Event) : List ClientId := es.filterMap opened?

/-- The clients that events close, once for every time. -/
def closedIn (es : List Event) : List ClientId := es.filterMap closed?

@[simp] theorem openedIn_nil : openedIn [] = [] := rfl

@[simp] theorem closedIn_nil : closedIn [] = [] := rfl

@[simp] theorem openedIn_append (es fs : List Event) :
    openedIn (es ++ fs) = openedIn es ++ openedIn fs := List.filterMap_append

@[simp] theorem closedIn_append (es fs : List Event) :
    closedIn (es ++ fs) = closedIn es ++ closedIn fs := List.filterMap_append

end Event

open Event (openedIn closedIn openedIn_append closedIn_append)

/-- One remote side follows another with these events between them, latest first. The clients that
they open are numbered on from those before, without a gap. -/
structure Remote.Becomes (r : Remote) (news : List Event) (r' : Remote) : Prop where
  events : r'.events = news ++ r.events
  grows : r.opened ≤ r'.opened
  opened : ∀ c : Nat, (openedIn news).count c = if r.opened ≤ c ∧ c < r'.opened then 1 else 0

namespace Remote.Becomes

variable {r s t : Remote} {news more : List Event}

/-- No event and no client, whatever else changed. -/
theorem still (he : s.events = r.events) (ho : s.opened = r.opened) : r.Becomes [] s := by
  refine ⟨he, Nat.le_of_eq ho.symm, fun c => ?_⟩
  rw [if_neg (by omega)]
  rfl

theorem refl (r : Remote) : r.Becomes [] r := still rfl rfl

theorem trans (h : r.Becomes news s) (h' : s.Becomes more t) : r.Becomes (more ++ news) t := by
  refine ⟨?_, Nat.le_trans h.grows h'.grows, fun c => ?_⟩
  · rw [h'.events, h.events, List.append_assoc]
  · have h1 := h.grows
    have h2 := h'.grows
    rw [openedIn_append, List.count_append, h.opened, h'.opened]
    split <;> split <;> split <;> omega

/-- A single event that opens nothing. -/
theorem record (r : Remote) {e : Event} (he : e.opened? = none) : r.Becomes [e] (r.record e) := by
  refine ⟨rfl, Nat.le_refl _, fun c => ?_⟩
  rw [if_neg (fun h => Nat.lt_irrefl _ (Nat.lt_of_le_of_lt h.1 h.2))]
  simp [openedIn, he]

theorem nodup (h : r.Becomes news s) : (openedIn news).Nodup := by
  refine List.nodup_iff_count.mpr fun c => ?_
  rw [h.opened c]
  split <;> omega

/-- The clients opened are those numbered between the two remote sides. -/
theorem mem_openedIn (h : r.Becomes news s) {c : Nat} :
    c ∈ openedIn news ↔ r.opened ≤ c ∧ c < s.opened := by
  rw [← List.count_pos_iff, h.opened c]
  split <;> simp_all

end Remote.Becomes

namespace Remote

/-- A client is opened, or an attempt fails and leaves no event. -/
theorem openClient_becomes (request : ClientRequest) (r : Remote) :
    (∃ r', r.openClient request = (.ok r.opened, r') ∧
      r.Becomes [.opened r.opened request] r') ∨
    ∃ f r', r.openClient request = (.error f, r') ∧ r.Becomes [] r' := by
  obtain ⟨next, t, hn⟩ : ∃ next t, r.nextRefusal = (next, t) := ⟨_, _, rfl⟩
  have ht : t.events = r.events ∧ t.opened = r.opened := by
    unfold nextRefusal at hn
    split at hn <;> cases hn <;> exact ⟨rfl, rfl⟩
  simp only [openClient, hn]
  cases next with
  | some f => exact .inr ⟨f, t, rfl, .still ht.1 ht.2⟩
  | none =>
    refine .inl ⟨_, congrArg (fun n => (Except.ok n, _)) ht.2, ?_, ?_, fun c => ?_⟩
    · show Event.opened t.opened request :: t.events = _
      rw [ht.1, ht.2]
      rfl
    · exact Nat.le_of_lt (Nat.lt_of_le_of_lt (Nat.le_of_eq ht.2.symm) (Nat.lt_succ_self _))
    · show [r.opened].count c = if r.opened ≤ c ∧ c < t.opened + 1 then 1 else 0
      rw [ht.2, List.count_singleton]
      by_cases h : r.opened = c
      · subst h
        simp
      · rw [if_neg (by simpa using h), if_neg (by omega)]

theorem close_becomes (c : ClientId) (r : Remote) : r.Becomes [.closed c] (r.close c).2 :=
  .record r rfl

theorem takeReply_events (r : Remote) (command : String) :
    (r.takeReply command).2.events = r.events := by
  unfold takeReply
  split <;> rfl

/-- A command other than the one that closes a client is recorded as it is. -/
theorem send_becomes (c : ClientId) {call : Call} (hc : call.command ≠ closingCommand)
    (r : Remote) : r.Becomes [.called c call] (r.send c call).2 := by
  have hs : (r.send c call).2.events = .called c call :: r.events := by
    unfold send
    rw [if_neg (by simp [hc])]
    dsimp only
    split
    · split
      · rfl
      · exact takeReply_events ..
    · exact takeReply_events ..
  have ht := Becomes.record r (e := .called c call) rfl
  refine ⟨hs, Nat.le_of_eq (send_opened c call r).symm, fun d => ?_⟩
  rw [send_opened]
  exact ht.opened d

end Remote

/-! ## Opening a pool -/

/-- With these limits a pool that fails to open leaves no connection open: either it asks for none,
or nothing can fail once all of them are open. -/
def Pool.Limits.RollsBack (l : Pool.Limits) : Prop := l.minIdle ≤ 0 ∨ l.isShowable = true

namespace ConnectionPool

variable {request : ClientRequest} {policy : Pool.Policy} {w w' : World}

@[simp] theorem surroundings_supply (w : World) : (surroundings request).answer .supply w =
    ((w.remote.openClient request).1, { w with remote := (w.remote.openClient request).2 }) := rfl

@[simp] theorem surroundings_ping (c : ClientId) (w : World) :
    (surroundings request).answer (.ping c) w =
      ((w.remote.send c { command := "ping" }).1,
        { w with remote := (w.remote.send c { command := "ping" }).2 }) := rfl

@[simp] theorem surroundings_close (c : ClientId) (w : World) :
    (surroundings request).answer (.close c) w =
      ((w.remote.close c).1.map fun _ => (), { w with remote := (w.remote.close c).2 }) := rfl

@[simp] theorem surroundings_report (ns : List Notice) (w : World) :
    ((surroundings request).report ns w).remote = w.remote := World.noteAll_remote w ns

/-- Connections are closed in turn, each once. -/
theorem closeAll_becomes (cs : List Pool.Conn) (w : World) :
    ∃ news, w.remote.Becomes news (Pool.closeAll (surroundings request) cs w).remote ∧
      openedIn news = [] ∧ ∀ c, (closedIn news).count c = cs.count c := by
  induction cs generalizing w with
  | nil => exact ⟨[], .refl _, rfl, fun _ => rfl⟩
  | cons d rest ih =>
    have hd := Remote.close_becomes d w.remote
    simp only [Pool.closeAll, surroundings_close]
    obtain ⟨news, hb, ho, hc⟩ := ih ((surroundings request).report
      (Pool.closingNotices ((w.remote.close d).1.map fun _ => ()))
      { w with remote := (w.remote.close d).2 })
    rw [surroundings_report] at hb
    refine ⟨news ++ [.closed d], hd.trans hb, ?_, fun c => ?_⟩
    · rw [openedIn_append, ho]
      rfl
    · rw [closedIn_append, List.count_append, hc c, Pool.count_cons_add]
      rfl

/-- What becomes of clients: with those in `idle` and those opened meanwhile the pool is stocked and
none of them is closed, or all of them are closed. -/
def Stocked (idle : List Pool.Conn) (news : List Event) : Except Fault (List Pool.Conn) → Prop
  | .ok opened => closedIn news = [] ∧ ∀ c, opened.count c = idle.count c + (openedIn news).count c
  | .error _ => ∀ c, (closedIn news).count c = idle.count c + (openedIn news).count c

theorem Stocked.cons {idle : List Pool.Conn} {news : List Event}
    {res : Except Fault (List Pool.Conn)} {c : ClientId} (h : Stocked (c :: idle) news res) :
    Stocked idle (news ++ [.opened c request]) res := by
  have ho : ∀ d, (openedIn (news ++ [.opened c request])).count d =
      (openedIn news).count d + [c].count d := by
    intro d
    rw [openedIn_append, List.count_append]
    rfl
  have hc : closedIn (news ++ [.opened c request]) = closedIn news := by
    rw [closedIn_append]
    exact List.append_nil _
  cases res with
  | ok opened =>
    refine ⟨hc.trans h.1, fun d => ?_⟩
    rw [h.2 d, ho d, Pool.count_cons_add]
    omega
  | error f =>
    intro d
    rw [hc, h d, ho d, Pool.count_cons_add]
    omega

theorem stock_becomes {n : Nat} {idle : List Pool.Conn} {res : Except Fault (List Pool.Conn)}
    (h : Pool.stock (surroundings request) policy n idle w = (res, w')) :
    ∃ news, w.remote.Becomes news w'.remote ∧ Stocked idle news res := by
  induction n generalizing idle w with
  | zero =>
    cases h
    exact ⟨[], .refl _, rfl, fun _ => rfl⟩
  | succ n ih =>
    simp only [Pool.stock, surroundings_supply] at h
    rcases Remote.openClient_becomes request w.remote with ⟨r, hr, hb⟩ | ⟨f, r, hr, hb⟩
    · simp only [hr] at h
      obtain ⟨news, hb', hn⟩ := ih h
      rw [surroundings_report] at hb'
      exact ⟨news ++ [.opened w.remote.opened request], hb.trans hb', hn.cons⟩
    · simp only [hr] at h
      cases h
      obtain ⟨news, hb', ho, hc⟩ := @closeAll_becomes request idle.reverse
        ((surroundings request).report [.poolNotOpened policy.name f] { w with remote := r })
      rw [surroundings_report] at hb'
      refine ⟨news, List.append_nil news ▸ hb.trans hb', fun c => ?_⟩
      rw [hc c, ho, List.count_reverse]
      rfl

/-- What the opening of a pool comes to, with the events that it causes. -/
inductive Installed (policy : Pool.Policy) : Except Fault Pool.Core → List Event → Prop
  /-- What was opened is closed again, if the limits see to that. -/
  | failed {f news} (hc : policy.limits.RollsBack → ∀ c,
      (closedIn news).count c = (openedIn news).count c) : Installed policy (.error f) news
  /-- The clients opened are idle in the pool. -/
  | opened {core news} (hc : closedIn news = [])
      (hi : ∀ c, core.idle.count c = (openedIn news).count c) : Installed policy (.ok core) news

theorem openPool_becomes {res : Except Fault Pool.Core}
    (h : Pool.openPool (surroundings request) policy w = (res, w')) :
    ∃ news, w.remote.Becomes news w'.remote ∧ Installed policy res news := by
  cases Pool.opening_of_openPool h with
  | notStocked hs =>
    obtain ⟨news, hb, hn⟩ := stock_becomes hs
    exact ⟨news, hb, .failed fun _ c => by simpa using hn c⟩
  | opened hs =>
    obtain ⟨news, hb, hc, hi⟩ := stock_becomes hs
    refine ⟨news, ?_, .opened hc fun c => by simpa using hi c⟩
    rw [surroundings_report]
    exact hb
  | notReported hs hl =>
    obtain ⟨news, hb, hc, hi⟩ := stock_becomes hs
    refine ⟨news, hb, .failed fun hr c => ?_⟩
    -- limits that see to it and cannot be reported ask for no connection
    have hempty := List.length_eq_zero_iff.mp ((Pool.stock_ok hs).trans
      (Int.toNat_of_nonpos (hr.resolve_right (by simp [hl]))))
    have := hi c
    rw [hempty] at this
    rw [hc]
    simpa using this

end ConnectionPool

/-! ## Operations on the world, with the events that they cause -/

namespace Act

variable {α β : Type}

/-- What an operation comes to fits the events that it causes. -/
def Tells (fits : Except Fault α → List Event → Prop) (act : Act World α) : Prop :=
  ∀ w, ∃ news, w.remote.Becomes news (act.run w).2.remote ∧ fits (act.run w).1 news

/-- An operation that causes no event. -/
def Still (act : Act World α) : Prop := act.Tells fun _ news => news = []

namespace Tells

variable {fits : Except Fault α → List Event → Prop}

theorem pure {a : α} (h : fits (.ok a) []) : Tells fits (Pure.pure a) := fun w =>
  ⟨[], .refl w.remote, h⟩

theorem throw {f : Fault} (h : fits (.error f) []) : Tells fits (MonadExcept.throw f) := fun w =>
  ⟨[], .refl w.remote, h⟩

/-- What would follow a fault does not happen. -/
theorem thrown {f : Fault} {g : β → Act World α} (h : fits (.error f) []) :
    Tells fits (MonadExcept.throw f >>= g) := fun w => ⟨[], .refl w.remote, h⟩

theorem bind {told : Except Fault β → List Event → Prop} {x : Act World β} {g : β → Act World α}
    (hx : Tells told x) (he : ∀ f news, told (.error f) news → fits (.error f) news)
    (hg : ∀ b news, told (.ok b) news → Tells (fun r more => fits r (more ++ news)) (g b)) :
    Tells fits (x >>= g) := by
  intro w
  obtain ⟨news, hb, ht⟩ := hx w
  rw [run_bind]
  cases hr : x.run w with
  | mk r w₁ =>
    rw [hr] at hb ht
    cases r with
    | error f => exact ⟨news, hb, he f news ht⟩
    | ok b =>
      obtain ⟨more, hb', hf⟩ := hg b news ht w₁
      exact ⟨more ++ news, hb.trans hb', hf⟩

/-- After an operation that causes no event. -/
theorem after {x : Act World β} {g : β → Act World α} (hx : x.Still)
    (he : ∀ f, fits (.error f) []) (hg : ∀ b, Tells fits (g b)) : Tells fits (x >>= g) := by
  refine bind hx (fun f news h => h ▸ he f) fun b news h => ?_
  subst h
  simpa using hg b

end Tells

namespace Still

theorem pure (a : α) : Still (Pure.pure a) := Tells.pure rfl

theorem throw (f : Fault) : Still (MonadExcept.throw f : Act World α) := Tells.throw rfl

theorem bind {x : Act World β} {g : β → Act World α} (hx : x.Still) (hg : ∀ b, Still (g b)) :
    Still (x >>= g) := Tells.after hx (fun _ => rfl) hg

theorem lift (x : Except Fault α) : Still (liftM x : Act World α) := by
  intro w
  cases x <;> exact ⟨[], .refl w.remote, rfl⟩

theorem mapM {f : β → Act World α} (hf : ∀ b, Still (f b)) (bs : List β) : Still (bs.mapM f) := by
  induction bs with
  | nil => exact pure []
  | cons b bs ih =>
    rw [List.mapM_cons]
    exact bind (hf b) fun _ => bind ih fun _ => pure _

end Still

end Act

namespace Connector

open Act

variable {k : Connector}

theorem note_still (n : Notice) : (note n).Still := fun w => ⟨[], .refl w.remote, rfl⟩

theorem resolve_still (hosts : String) : (resolve hosts).Still :=
  .bind (.lift _) fun _ => .bind (note_still _) fun _ => .pure _

theorem noteDatabase_still (n? : Option Int) : (noteDatabase n?).Still := by
  unfold noteDatabase
  split
  · split
    · split
      · exact note_still _
      · exact .throw _
    · exact .pure ()
  · exact .pure ()

theorem transport_still (address : ServerAddress) (password : Value) (options : Options) :
    (transport address password options).Still := by
  refine .bind (.lift _) fun t => ?_
  dsimp only
  split
  · exact .bind (note_still _) fun _ => .pure _
  · exact .pure _

theorem openClient_tells (request : ClientRequest) : (openClient request).Tells fun r news =>
    (∃ c, r = .ok (.ok c) ∧ news = [.opened c request]) ∨ ∃ f, r = .ok (.error f) ∧ news = [] := by
  intro w
  have hr : (openClient request).run w = (.ok (w.remote.openClient request).1,
    { w with remote := (w.remote.openClient request).2 }) := rfl
  rw [hr]
  rcases Remote.openClient_becomes request w.remote with ⟨r, ho, hb⟩ | ⟨f, r, ho, hb⟩
  · rw [ho]
    exact ⟨_, hb, .inl ⟨_, rfl, rfl⟩⟩
  · rw [ho]
    exact ⟨[], hb, .inr ⟨f, rfl, rfl⟩⟩

/-- What a connector comes to, with the events that it causes. -/
inductive Connected (pooling : Bool) : Except Fault ClientSource → List Event → Prop
  | failed {f} : Connected pooling (.error f) []
  /-- A client is open for good. -/
  | direct {c request} (h : pooling = false) :
      Connected pooling (.ok (.direct c)) [.opened c request]
  /-- Clients are left to a pool to open. -/
  | supplier {request} (h : pooling = true) : Connected pooling (.ok (.supplier request)) []

/-- A client is opened for good, or what happens instead causes no event. -/
theorem opened_tells (hk : k.pooling ≠ true) {request : ClientRequest}
    {g : Except Failure ClientId → Act World ClientSource}
    (hd : ∀ c, ∃ n, g (.ok c) = note n >>= fun _ => Pure.pure (.direct c))
    (hf : ∀ f, (g (.error f)).Tells (Connected k.pooling)) :
    (openClient request >>= g).Tells (Connected k.pooling) := by
  refine .bind (openClient_tells request) (fun f news h => ?_) fun b news h => ?_
  · rcases h with ⟨c, h, -⟩ | ⟨e, h, -⟩ <;> cases h
  · rcases h with ⟨c, h, rfl⟩ | ⟨e, h, rfl⟩
    · cases h
      obtain ⟨n, hn⟩ := hd c
      rw [hn]
      exact fun w => ⟨[], .refl w.remote, .direct (by simpa using hk)⟩
    · cases h
      simpa using hf e

theorem standalone_tells (address : ServerAddress) (password : Value) (options : Options) :
    (k.standalone address password options).Tells (Connected k.pooling) := by
  refine .after (transport_still address password options) (fun _ => .failed) fun t => ?_
  refine .after (.lift _) (fun _ => .failed) fun _ => ?_
  refine .after (note_still _) (fun _ => .failed) fun _ => ?_
  by_cases hk : k.pooling = true
  · rw [if_pos hk]
    exact .pure (.supplier hk)
  · rw [if_neg hk]
    exact opened_tells hk (fun _ => ⟨_, rfl⟩) fun _ => .throw .failed

theorem clusterSource_tells (addresses : List ServerAddress) (request : ClientRequest) :
    (k.clusterSource addresses request).Tells (Connected k.pooling) := by
  unfold clusterSource
  by_cases hk : k.pooling = true
  · rw [if_pos hk]
    exact .pure (.supplier hk)
  · rw [if_neg hk]
    refine opened_tells hk (fun _ => ⟨_, rfl⟩) fun f => ?_
    dsimp only
    split
    · exact .after (.lift _) (fun _ => .failed) fun _ =>
        .after (note_still _) (fun _ => .failed) fun _ => .throw .failed
    · exact .throw .failed

theorem cluster_tells (addresses : List ServerAddress) (password : Value) (options : Options) :
    (k.cluster addresses password options).Tells (Connected k.pooling) := by
  refine .after (.mapM (fun a => transport_still a password options) _) (fun _ => .failed)
    fun ts => ?_
  cases ts with
  | nil => exact .throw .failed
  | cons t rest =>
    exact .after (noteDatabase_still _) (fun _ => .failed) fun _ => clusterSource_tells _ _

theorem connect_tells (topology : Topology) (addresses : List ServerAddress) (password : Value)
    (options : Options) :
    (k.connect topology addresses password options).Tells (Connected k.pooling) := by
  cases topology with
  | cluster => exact cluster_tells addresses password options
  | standalone =>
    cases addresses with
    | nil => exact .throw .failed
    | cons a rest => exact standalone_tells a password options

end Connector

/-! ## Initializations -/

/-- With this plan an initialization that fails leaves no client open. -/
def ManagerPlan.RollsBack (plan : ManagerPlan) : Prop :=
  plan.pooling = true → plan.limits.RollsBack

namespace Manager

open Act

variable {plan : ManagerPlan}

/-- What an initialization comes to, with the events that it causes. -/
inductive Established (plan : ManagerPlan) : Except Fault (Facade × Nat) → List Event → Prop
  /-- All that was opened is closed again, if the plan sees to that; without a pool nothing was
  opened. -/
  | failed {f news} (hc : plan.RollsBack → ∀ c, (closedIn news).count c = (openedIn news).count c)
      (hd : plan.pooling = false → news = []) : Established plan (.error f) news
  | direct {c request n} (hp : plan.pooling = false) :
      Established plan (.ok (⟨plan.topology, .direct c⟩, n)) [.opened c request]
  /-- The clients opened are idle in the new pool. -/
  | pooled {p n news} (hp : plan.pooling = true) (hl : p.policy = ⟨poolName plan, plan.limits⟩)
      (ho : ∃ w w', Pool.openPool (ConnectionPool.surroundings p.request) p.policy w =
        (.ok p.core, w'))
      (hc : closedIn news = []) (hi : ∀ c, p.core.idle.count c = (openedIn news).count c) :
      Established plan (.ok (⟨plan.topology, .pooled p⟩, n)) news

/-- A pool is opened around a request. -/
theorem facadeOf_tells (hp : plan.pooling = true) (request : ClientRequest) (n : Nat) :
    (facadeOf plan (.supplier request) >>= fun facade => Pure.pure (facade, n)).Tells
      (Established plan) := by
  intro w
  obtain ⟨opened, w₁, ho⟩ : ∃ opened w₁, Pool.openPool (ConnectionPool.surroundings request)
      ⟨poolName plan, plan.limits⟩ w = (opened, w₁) := ⟨_, _, rfl⟩
  have hr : (facadeOf plan (.supplier request) >>= fun facade => Pure.pure (facade, n)).run w =
      (opened.map fun core =>
        (⟨plan.topology, .pooled ⟨⟨poolName plan, plan.limits⟩, request, core⟩⟩, n), w₁) := by
    rw [run_bind, facadeOf_run ho]
    cases opened <;> rfl
  obtain ⟨news, hb, hs⟩ := ConnectionPool.openPool_becomes ho
  rw [hr]
  refine ⟨news, hb, ?_⟩
  cases hs with
  | failed hc =>
    exact .failed (fun h => hc (h hp)) fun h => absurd (hp.symm.trans h) Bool.noConfusion
  | opened hc hi => exact .pooled hp rfl ⟨w, w₁, ho⟩ hc hi

theorem establish_tells (hosts : String) (password : Value) (options : Options) :
    (establish plan hosts password options).Tells (Established plan) := by
  have failed : ∀ f, Established plan (.error f) [] := fun f =>
    .failed (fun _ _ => rfl) fun _ => rfl
  refine .after (Connector.resolve_still hosts) failed fun addresses => ?_
  dsimp only
  split
  · exact .thrown (failed _)
  · refine .bind (Connector.connect_tells _ _ _ _) (fun f news h => ?_) fun source news h => ?_
    · cases h
      exact failed f
    · cases h with
      | direct hp => exact fun w => ⟨[], .refl w.remote, .direct hp⟩
      | supplier hp => simpa using facadeOf_tells hp _ addresses.length

end Manager
end RedisGateway
