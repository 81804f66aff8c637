import RedisGateway.Proofs.Manager.Lending
import RedisGateway.Proofs.Pool.Translation
import RedisGateway.Proofs.Transport.Redaction

/-!
Managers with their passwords redacted. Redacting the password that a manager keeps for its pool,
and the password in the events of its world, commutes with every operation of the manager: what the
operation comes to is the same, and what it leaves behind is the same redacted. No operation reads a
password.
-/

namespace RedisGateway

/-! ## Operations in states that are seen through a map -/

/-- The second operation does in a state seen through a map what the first one does in the state
itself, and comes to the same seen through a map. -/
def Act.Maps {σ τ α β : Type} (view : σ → τ) (see : α → β) (act : Act σ α) (act' : Act τ β) :
    Prop :=
  ∀ s, act'.run (view s) = ((act.run s).1.map see, view (act.run s).2)

namespace Act.Maps

variable {σ τ α β γ δ : Type} {view : σ → τ} {see : α → β}

theorem pure {a : α} {b : β} (h : b = see a) :
    Act.Maps view see (Pure.pure a) (Pure.pure b) := by
  subst h
  exact fun _ => rfl

theorem throw (f : Fault) :
    Act.Maps view see (MonadExcept.throw f) (MonadExcept.throw f) := fun _ => rfl

theorem get : Act.Maps view view MonadState.get MonadState.get := fun _ => rfl

theorem lift {x : Except Fault α} {y : Except Fault β} (h : y = x.map see) :
    Act.Maps view see (liftM x) (liftM y) := by
  intro s
  subst h
  cases x <;> rfl

theorem change {g : σ → σ} {g' : τ → τ} (h : ∀ s, g' (view s) = view (g s)) :
    Act.Maps view id (modify g) (modify g') := fun s =>
  Prod.ext rfl (h s)

theorem put {s : σ} {s' : τ} (h : s' = view s) :
    Act.Maps view (fun _ => PUnit.unit) (set s) (set s') := fun _ => Prod.ext rfl h

theorem bind {before : γ → δ} {x : Act σ γ} {x' : Act τ δ} {f : γ → Act σ α} {f' : δ → Act τ β}
    (hx : Act.Maps view before x x') (hf : ∀ a, Act.Maps view see (f a) (f' (before a))) :
    Act.Maps view see (x >>= f) (x' >>= f') := by
  intro s
  rw [run_bind, run_bind, hx s]
  obtain ⟨r, t⟩ := x.run s
  cases r with
  | ok a => exact hf a t
  | error e => rfl

/-- What would follow a fault does not happen. -/
theorem thrown (f : Fault) {g : γ → Act σ α} {g' : γ → Act τ β} :
    Act.Maps view see (MonadExcept.throw f >>= g) (MonadExcept.throw f >>= g') := fun _ => rfl

theorem mapM {f : γ → Act σ α} {f' : γ → Act τ β} (h : ∀ c, Act.Maps view see (f c) (f' c))
    (cs : List γ) : Act.Maps view (List.map see) (cs.mapM f) (cs.mapM f') := by
  induction cs with
  | nil => exact pure rfl
  | cons c cs ih =>
    rw [List.mapM_cons, List.mapM_cons]
    exact bind (h c) fun a => bind ih fun as => pure rfl

theorem forIn {f : γ → Unit → Act σ (ForInStep Unit)} {f' : γ → Unit → Act τ (ForInStep Unit)}
    (h : ∀ c u, Act.Maps view id (f c u) (f' c u)) (cs : List γ) (u : Unit) :
    Act.Maps view id (ForIn.forIn cs u f) (ForIn.forIn cs u f') := by
  induction cs generalizing u with
  | nil => exact pure rfl
  | cons c cs ih =>
    rw [List.forIn_cons, List.forIn_cons]
    refine bind (h c u) fun step => ?_
    cases step with
    | done u => exact pure rfl
    | yield u => exact ih u

end Act.Maps

/-! ## With passwords redacted -/

def ClientRequest.redacted : ClientRequest → ClientRequest
  | .standalone kws => .standalone kws.redacted
  | .cluster kws nodes => .cluster kws.redacted nodes

/-- Only what a client was opened with holds a password. -/
def Event.redacted : Event → Event
  | .opened c request => .opened c request.redacted
  | .called c call => .called c call
  | .closed c => .closed c

def Remote.redacted (r : Remote) : Remote := { r with events := r.events.map Event.redacted }

def World.redacted (w : World) : World := { w with remote := w.remote.redacted }

def ClientSource.redacted : ClientSource → ClientSource
  | .direct client => .direct client
  | .supplier request => .supplier request.redacted

def ConnectionPool.redacted (p : ConnectionPool) : ConnectionPool :=
  { p with request := p.request.redacted }

def Backend.redacted : Backend → Backend
  | .direct client => .direct client
  | .pooled p => .pooled p.redacted

def Facade.redacted (f : Facade) : Facade := { f with backend := f.backend.redacted }

def Manager.redacted (m : Manager) : Manager := { m with facade := m.facade.map Facade.redacted }

def Site.redacted (s : Site) : Site := ⟨s.manager.redacted, s.world.redacted⟩

/-! ## The remote side -/

namespace Remote

theorem openClient_redacted (request : ClientRequest) (r : Remote) :
    r.redacted.openClient request.redacted =
      ((r.openClient request).1, (r.openClient request).2.redacted) := by
  -- whether a client opens is settled before it, whatever it is opened with
  unfold openClient nextRefusal
  obtain ⟨refusal, upcoming, opened, scripts, replies, events⟩ := r
  cases upcoming with
  | nil => cases refusal <;> rfl
  | cons next rest => cases next <;> rfl

theorem close_redacted (c : ClientId) (r : Remote) :
    r.redacted.close c = ((r.close c).1, (r.close c).2.redacted) := rfl

theorem takeReply_redacted (command : String) (r : Remote) :
    r.redacted.takeReply command = ((r.takeReply command).1, (r.takeReply command).2.redacted) := by
  unfold takeReply
  rw [show r.redacted.replies = r.replies from rfl]
  cases r.replies.lookup command with
  | none => rfl
  | some outcomes => cases outcomes <;> rfl

theorem send_redacted (c : ClientId) (call : Call) (r : Remote) :
    r.redacted.send c call = ((r.send c call).1, (r.send c call).2.redacted) := by
  unfold send
  split
  · exact close_redacted c r
  · have hr : r.redacted.record (.called c call) = (r.record (.called c call)).redacted := rfl
    rw [hr]
    generalize r.record (.called c call) = asked
    dsimp only
    rw [show asked.redacted.script c = asked.script c from rfl]
    cases (asked.script c).ping with
    | none => exact takeReply_redacted call.command asked
    | some o =>
      dsimp only
      split
      · rfl
      · exact takeReply_redacted call.command asked

end Remote

/-- The surroundings of a pool with its request redacted, in a world that is redacted too. -/
theorem ConnectionPool.surroundings_redacted (request : ClientRequest) :
    (surroundings request).Maps (surroundings request.redacted) World.redacted := by
  constructor
  · intro r w
    cases r with
    | supply => simp only [surroundings, World.redacted, Remote.openClient_redacted]
    | ping c => simp only [surroundings, World.redacted, Remote.send_redacted]
    | close c => simp only [surroundings, World.redacted, Remote.close_redacted]
  · intro ns w
    show w.redacted.noteAll ns = (w.noteAll ns).redacted
    induction ns generalizing w with
    | nil => rfl
    | cons n ns ih => exact ih (w.note n)

/-! ## Connectors -/

namespace Connector

variable {k : Connector}

theorem note_redacted (n : Notice) : (note n).Maps World.redacted id (note n) := fun _ => rfl

theorem openClient_redacted (request : ClientRequest) :
    (openClient request).Maps World.redacted id (openClient request.redacted) := by
  intro w
  have h := Remote.openClient_redacted request w.remote
  show (Except.ok (w.remote.redacted.openClient request.redacted).1,
    ({ w with remote := (w.remote.redacted.openClient request.redacted).2 } : World)) = _
  rw [h]
  rfl

theorem resolve_redacted (hosts : String) :
    (resolve hosts).Maps World.redacted id (resolve hosts) :=
  .bind (.lift (id_map _).symm) fun _ => .bind (note_redacted _) fun _ => .pure rfl

theorem noteDatabase_redacted (n? : Option Int) :
    (noteDatabase n?).Maps World.redacted id (noteDatabase n?) := by
  unfold noteDatabase
  split
  · split
    · split
      · exact note_redacted _
      · exact .throw _
    · exact .pure rfl
  · exact .pure rfl

theorem transport_redacted (address : ServerAddress) (password : Value) (options : Options) :
    (transport address password options).Maps World.redacted Transport.redacted
      (transport address password.redacted options) := by
  refine .bind (.lift (Transport.build_redacted _ _ _ _)) fun t => ?_
  have ht : t.redacted.startTls = t.startTls := rfl
  simp only [ht]
  by_cases hs : t.startTls = true
  · simp only [if_pos hs]
    exact .bind (note_redacted _) fun _ => .pure rfl
  · simp only [if_neg hs]
    exact .pure rfl

theorem standalone_redacted (address : ServerAddress) (password : Value) (options : Options) :
    (k.standalone address password options).Maps World.redacted ClientSource.redacted
      (k.standalone address password.redacted options) := by
  refine .bind (transport_redacted address password options) fun t => ?_
  simp only [Transport.endpointKeywords_redacted, Transport.describe_redacted]
  refine .bind (.lift (id_map _).symm) fun _ => .bind (note_redacted _) fun _ => ?_
  by_cases hk : k.pooling = true
  · simp only [if_pos hk]
    refine .pure ?_
    rw [ClientSource.redacted, ClientRequest.redacted, Keywords.redacted_append]
    rfl
  · simp only [if_neg hk]
    refine .bind (openClient_redacted (.standalone (t.endpointKeywords k.codec))) fun answer => ?_
    cases answer with
    | ok client => exact .bind (note_redacted _) fun _ => .pure rfl
    | error f => exact .throw _

theorem clusterSource_redacted (addresses : List ServerAddress) (request : ClientRequest) :
    (k.clusterSource addresses request).Maps World.redacted ClientSource.redacted
      (k.clusterSource addresses request.redacted) := by
  unfold clusterSource
  by_cases hk : k.pooling = true
  · simp only [if_pos hk]
    exact .pure rfl
  · simp only [if_neg hk]
    refine .bind (openClient_redacted request) fun answer => ?_
    cases answer with
    | ok client => exact .bind (note_redacted _) fun _ => .pure rfl
    | error f =>
      dsimp only [id]
      split
      · exact .bind (.lift (id_map _).symm) fun _ => .bind (note_redacted _) fun _ => .throw _
      · exact .throw _

theorem cluster_redacted (addresses : List ServerAddress) (password : Value) (options : Options) :
    (k.cluster addresses password options).Maps World.redacted ClientSource.redacted
      (k.cluster addresses password.redacted options) := by
  refine .bind (.mapM (fun a => transport_redacted a password options) addresses) fun ts => ?_
  cases ts with
  | nil => exact .throw _
  | cons t rest =>
    -- the nodes are the same with the passwords of their configurations redacted
    have hn : (rest.map Transport.redacted).map (fun t => (t.host, t.port)) =
        rest.map fun t => (t.host, t.port) := by
      rw [List.map_map]
      rfl
    have hs := clusterSource_redacted (k := k) addresses (.cluster (t.sharedKeywords k.codec)
      ((t.host, t.port) :: rest.map fun t => (t.host, t.port)))
    rw [ClientRequest.redacted, ← Transport.sharedKeywords_redacted] at hs
    simp only [List.map_cons, hn, show t.redacted.database = t.database from rfl]
    exact .bind (noteDatabase_redacted _) fun _ => hs

theorem connect_redacted (topology : Topology) (addresses : List ServerAddress) (password : Value)
    (options : Options) :
    (k.connect topology addresses password options).Maps World.redacted ClientSource.redacted
      (k.connect topology addresses password.redacted options) := by
  cases topology with
  | cluster => exact cluster_redacted addresses password options
  | standalone =>
    cases addresses with
    | nil => exact .throw _
    | cons a rest => exact standalone_redacted a password options

end Connector

/-! ## Managers -/

namespace Manager

variable {plan : ManagerPlan}

theorem facadeOf_redacted (source : ClientSource) :
    (facadeOf plan source).Maps World.redacted Facade.redacted (facadeOf plan source.redacted) := by
  intro w
  cases source with
  | direct client => rfl
  | supplier request =>
    have h := Pool.openPool_seen (ConnectionPool.surroundings_redacted request)
      ⟨poolName plan, plan.limits⟩ w
    show facadeOf plan (.supplier request.redacted) w.redacted =
      ((facadeOf plan (.supplier request) w).1.map Facade.redacted,
        (facadeOf plan (.supplier request) w).2.redacted)
    simp only [facadeOf, ConnectionPool.create, h]
    cases (Pool.openPool (ConnectionPool.surroundings request)
      ⟨poolName plan, plan.limits⟩ w).1 <;> rfl

theorem establish_redacted (hosts : String) (password : Value) (options : Options) :
    (establish plan hosts password options).Maps World.redacted
    (fun made => (made.1.redacted, made.2))
      (establish plan hosts password.redacted options) := by
  refine .bind (Connector.resolve_redacted hosts) fun addresses => ?_
  dsimp only [id]
  split
  · exact .thrown _
  · refine .bind (Connector.connect_redacted _ _ _ _) fun source => ?_
    exact .bind (facadeOf_redacted source) fun f => .pure rfl

theorem onWorld_redacted {α β : Type} {see : α → β} {act : Act World α} {act' : Act World β}
    (h : act.Maps World.redacted see act') :
    (onWorld act).Maps Site.redacted see (onWorld act') := by
  intro s
  show ((act'.run s.world.redacted).1,
    ({ s.redacted with world := (act'.run s.world.redacted).2 } : Site)) = _
  rw [h s.world]
  rfl

theorem note_redacted (n : Notice) : (note n).Maps Site.redacted id (note n) :=
  onWorld_redacted (Connector.note_redacted n)

theorem onFacade_redacted {α : Type} {f : Facade}
    {act act' : Facade → World → Except Fault α × Facade × World}
    (h : ∀ w : World, act' f.redacted w.redacted =
      ((act f w).1, (act f w).2.1.redacted, (act f w).2.2.redacted)) :
    (onFacade f act).Maps Site.redacted id (onFacade f.redacted act') := by
  intro s
  show ((act' f.redacted s.world.redacted).1,
    (⟨{ s.manager.redacted with facade := some (act' f.redacted s.world.redacted).2.1 },
      (act' f.redacted s.world.redacted).2.2⟩ : Site)) = _
  rw [h s.world, Except.map_id]
  rfl

/-- A call of a pool whose request is redacted. -/
theorem perform_redacted {p : ConnectionPool} {w : World}
    (call : Pool.Surroundings World → Pool.Policy → Pool.Core → World →
      Pool.Result × Pool.Core × World)
    (h : call (ConnectionPool.surroundings p.request.redacted) p.policy p.core w.redacted =
      Pool.seen World.redacted (call (ConnectionPool.surroundings p.request) p.policy p.core w)) :
    p.redacted.perform call w.redacted =
      ((p.perform call w).1, (p.perform call w).2.1.redacted, (p.perform call w).2.2.redacted) := by
  have hp : ∀ (q : ConnectionPool) (u : World), q.perform call u =
      ((call (ConnectionPool.surroundings q.request) q.policy q.core u).1,
        { q with core := (call (ConnectionPool.surroundings q.request) q.policy q.core u).2.1 },
        (call (ConnectionPool.surroundings q.request) q.policy q.core u).2.2) := fun _ _ => rfl
  rw [hp, hp, show p.redacted.request = p.request.redacted from rfl,
    show p.redacted.policy = p.policy from rfl, show p.redacted.core = p.core from rfl, h]
  rfl

theorem facadeHandle_redacted (f : Facade) (w : World) : f.redacted.handle w.redacted =
    ((f.handle w).1, (f.handle w).2.1.redacted, (f.handle w).2.2.redacted) := by
  obtain ⟨t, b⟩ := f
  cases b with
  | direct client => rfl
  | pooled p =>
    have h := perform_redacted (p := p) (w := w) (fun s policy => Pool.borrow s policy none)
      (Pool.borrow_seen (ConnectionPool.surroundings_redacted p.request) p.policy none p.core w)
    simp only [Facade.handle, Facade.redacted, Backend.redacted, h]

theorem facadeRelease_redacted (f : Facade) (h : Handle) (w : World) :
    f.redacted.release h w.redacted =
      ((f.release h w).1, (f.release h w).2.1.redacted, (f.release h w).2.2.redacted) := by
  obtain ⟨t, b⟩ := f
  cases b with
  | direct client => rfl
  | pooled p =>
    have hp := perform_redacted (p := p) (w := w) (fun s policy => Pool.giveBack s policy h.client)
      (Pool.giveBack_seen (ConnectionPool.surroundings_redacted p.request) p.policy h.client p.core
        w)
    simp only [Facade.release, Facade.redacted, Backend.redacted, hp]

theorem handle_redacted : handle.Maps Site.redacted id handle := by
  refine .bind .get fun s => ?_
  obtain ⟨⟨plan, facade, closed, registry⟩, world⟩ := s
  cases facade with
  | none => exact .throw _
  | some f =>
    -- only whether there is a pool is looked at, not what it opens clients with
    have hp : f.redacted.pool?.isNone = f.pool?.isNone := by
      obtain ⟨t, b⟩ := f
      cases b <;> rfl
    simp only [Site.redacted, Manager.redacted, Option.map, hp]
    split
    · exact .thrown _
    · exact onFacade_redacted (facadeHandle_redacted f)

theorem release_redacted (h : Option Handle) : (release h).Maps Site.redacted id (release h) := by
  refine .bind .get fun s => ?_
  obtain ⟨⟨⟨codec, topology, pooling, limits⟩, facade, closed, registry⟩, world⟩ := s
  cases pooling with
  | false => exact .pure rfl
  | true =>
    cases h with
    | none => exact .pure rfl
    | some h =>
      cases facade with
      | none => exact .pure rfl
      | some f => exact onFacade_redacted fun w => facadeRelease_redacted f h w

theorem thenAlways_redacted {σ τ α : Type} {view : σ → τ} {body : Act σ α} {body' : Act τ α}
    {closing : Act σ Unit} {closing' : Act τ Unit} (hb : body.Maps view id body')
    (hc : closing.Maps view id closing') :
    (thenAlways body closing).Maps view id (thenAlways body' closing') := by
  intro s
  show ((closing'.run (body'.run (view s)).2).1.bind fun _ => (body'.run (view s)).1,
    (closing'.run (body'.run (view s)).2).2) = _
  -- the closing begins where the body ends
  rw [hb s, Except.map_id]
  dsimp only [id]
  rw [hc, Except.map_id]
  rfl

theorem withHandle_redacted {α : Type} {body body' : Handle → Act Site α}
    (hb : ∀ h, (body h).Maps Site.redacted id (body' h)) :
    (withHandle body).Maps Site.redacted id (withHandle body') :=
  .bind handle_redacted fun h => thenAlways_redacted (hb h) (release_redacted (some h))

theorem send_redacted (h : Handle) (call : Call) :
    (send h call).Maps Site.redacted id (send h call) := by
  intro s
  have hs := Remote.send_redacted h.client call s.world.remote
  show (Except.ok (s.world.remote.redacted.send h.client call).1,
    ({ s.redacted with world := { s.world.redacted with
      remote := (s.world.remote.redacted.send h.client call).2 } } : Site)) = _
  rw [hs]
  rfl

theorem execute_redacted (call : Call) : (execute call).Maps Site.redacted id (execute call) := by
  refine withHandle_redacted fun h => .bind (send_redacted h call) fun outcome => ?_
  refine .bind (.forIn (fun n _ => .bind (note_redacted n) fun _ => .pure rfl) _ _) fun _ => ?_
  exact .lift (id_map _).symm

theorem executeGiven_redacted (args : List Value) (named : Fields) :
    (executeGiven args named).Maps Site.redacted id (executeGiven args named) := by
  unfold executeGiven
  split
  · exact .throw _
  · exact execute_redacted _
  · exact withHandle_redacted fun _ => .throw _

theorem executor_redacted (category : Value) :
    (executor category).Maps Site.redacted id (executor category) := by
  intro s
  rw [executor_run, executor_run]
  cases Category.ofValue? category <;> rfl

theorem command_redacted (category : Value) (name : String) (args : List Value) (named : Fields) :
    (command category name args named).Maps Site.redacted id
      (command category name args named) := by
  refine .bind (executor_redacted category) fun e => ?_
  dsimp only [id]
  cases ExecutorMember.find? e.category name with
  | none => exact .throw _
  | some m =>
    cases m with
    | «attribute» => exact .throw _
    | sender => exact executeGiven_redacted args named
    | command c =>
      exact .bind (.lift (id_map _).symm) fun _ => execute_redacted _

theorem shutPool_redacted (f : Facade) (p : ConnectionPool) :
    (shutPool f p).Maps Site.redacted id (shutPool f.redacted p.redacted) := by
  refine onFacade_redacted fun w => ?_
  have h := perform_redacted (p := p) (w := w) Pool.close
    (Pool.close_seen (ConnectionPool.surroundings_redacted p.request) p.policy p.core w)
  simp only [h]
  rfl

theorem closePool_redacted : closePool.Maps Site.redacted id closePool := by
  refine .bind .get fun s => ?_
  obtain ⟨⟨plan, facade, closed, registry⟩, world⟩ := s
  cases facade with
  | none => exact note_redacted _
  | some f =>
    obtain ⟨t, b⟩ := f
    cases b with
    | direct client => exact note_redacted _
    | pooled p => exact shutPool_redacted ⟨t, .pooled p⟩ p

theorem closeClient_redacted (client : ClientId) :
    (closeClient client).Maps Site.redacted id (closeClient client) := by
  refine .bind .get fun s => ?_
  refine .bind (.put rfl) fun _ => ?_
  rw [show s.redacted.world.remote.script client = s.world.remote.script client from rfl]
  cases ((s.world.remote.script client).close.getD (.ok .none)) with
  | error f => exact note_redacted _
  | ok v => exact .pure rfl

theorem close_redacted : close.Maps Site.redacted id close := by
  refine .bind .get fun s => ?_
  obtain ⟨⟨plan, facade, closed, registry⟩, world⟩ := s
  cases closed with
  | true => exact .pure rfl
  | false =>
    refine .bind (.change fun _ => rfl) fun _ => ?_
    cases facade with
    | none => exact note_redacted _
    | some f =>
      obtain ⟨t, b⟩ := f
      cases b with
      | direct client => exact .bind (closeClient_redacted client) fun _ => note_redacted _
      | pooled p => exact .bind (shutPool_redacted ⟨t, .pooled p⟩ p) fun _ => note_redacted _

theorem init_redacted (hosts : String) (password : Value) (options : Options) :
    (init hosts password options).Maps Site.redacted id (init hosts password.redacted options) := by
  refine .bind .get fun s => ?_
  have hi : s.redacted.manager.facade.isSome = s.manager.facade.isSome := Option.isSome_map ..
  simp only [hi, show s.redacted.manager.closed = s.manager.closed from rfl,
    show s.redacted.manager.plan = s.manager.plan from rfl]
  split
  · exact .thrown _
  · split
    · exact .thrown _
    · refine .bind (onWorld_redacted (establish_redacted hosts password options)) fun made => ?_
      exact .bind (.change fun _ => rfl) fun _ => note_redacted _

end Manager
end RedisGateway
