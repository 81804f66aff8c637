import RedisGateway.Proofs.Manager.Initialization
import RedisGateway.Proofs.Pool.Renumbering

/-!
Managers do not look at the numbers of clients. Two managers that differ only in the numbers of
their clients, the numbers of one being those of the other moved up by the same amount, do the same
under these numbers, whatever they are asked for.
-/

namespace RedisGateway

open Pool (mem_renumbered)

/-! ## The same under new numbers -/

namespace Fault

/-- A fault that names no client. -/
def Numberless (f : Fault) : Prop := ∀ σ, f.renumbered σ = f

end Fault

/-- Numbers are moved up. -/
def movedUp (k : Nat) (c : ClientId) : ClientId := c + k

theorem movedUp_injective (k : Nat) : Function.Injective (movedUp k) := fun _ _ h =>
  Nat.add_right_cancel h

def Event.moved (k : Nat) : Event → Event
  | .opened c request => .opened (movedUp k c) request
  | .called c call => .called (movedUp k c) call
  | .closed c => .closed (movedUp k c)

def Handle.moved (k : Nat) (h : Handle) : Handle :=
  { h with client := movedUp k h.client }

def ConnectionPool.moved (k : Nat) (p : ConnectionPool) : ConnectionPool :=
  { p with core := p.core.renumbered (movedUp k) }

def Backend.moved (k : Nat) : Backend → Backend
  | .direct client => .direct (movedUp k client)
  | .pooled p => .pooled (p.moved k)

def Facade.moved (k : Nat) (f : Facade) : Facade := { f with backend := f.backend.moved k }

/-- Two remote sides of which the second answers for the clients moved up as the first does, with
the same events since `old` and `old'`. -/
structure Remote.Mirrors (k : Nat) (old old' : List Event) (r r' : Remote) : Prop where
  refusal : r'.refusal = r.refusal
  upcoming : r'.upcoming = r.upcoming
  opened : r'.opened = r.opened + k
  script : ∀ c, r'.script (c + k) = r.script c
  replies : r'.replies = r.replies
  events : ∃ news, r.events = news ++ old ∧ r'.events = news.map (Event.moved k) ++ old'

/-- The same for worlds. -/
def World.Mirrors (k : Nat) (old old' : List Event) (w w' : World) : Prop :=
  w.remote.Mirrors k old old' w'.remote

/-- Two managers in their worlds, of which the second is the first with its clients moved up. The
executors that they made may differ. -/
structure Site.Mirrors (k : Nat) (old old' : List Event) (s s' : Site) : Prop where
  plan : s'.manager.plan = s.manager.plan
  closed : s'.manager.closed = s.manager.closed
  facade : s'.manager.facade = s.manager.facade.map (Facade.moved k)
  remote : s.world.remote.Mirrors k old old' s'.world.remote

section

variable {k : Nat} {old old' : List Event}

namespace Remote.Mirrors

variable {r r' : Remote}

theorem record (h : r.Mirrors k old old' r') (e : Event) :
    (r.record e).Mirrors k old old' (r'.record (e.moved k)) := by
  obtain ⟨news, h1, h2⟩ := h.events
  exact ⟨h.refusal, h.upcoming, h.opened, h.script, h.replies, e :: news,
    congrArg (e :: ·) h1, congrArg (e.moved k :: ·) h2⟩

theorem nextRefusal (h : r.Mirrors k old old' r') : r'.nextRefusal.1 = r.nextRefusal.1 ∧
    r.nextRefusal.2.Mirrors k old old' r'.nextRefusal.2 := by
  unfold Remote.nextRefusal
  rw [h.upcoming]
  cases r.upcoming with
  | nil => exact ⟨h.refusal, h⟩
  | cons next rest =>
    exact ⟨rfl, h.refusal, rfl, h.opened, h.script, h.replies, h.events⟩

theorem openClient (h : r.Mirrors k old old' r') (request : ClientRequest) :
    (r'.openClient request).1 = (r.openClient request).1.map (movedUp k) ∧
      (r.openClient request).2.Mirrors k old old' (r'.openClient request).2 := by
  obtain ⟨h1, h2⟩ := h.nextRefusal
  unfold Remote.openClient
  generalize r.nextRefusal = out at h1 h2
  generalize r'.nextRefusal = out' at h1 h2
  obtain ⟨next, t⟩ := out
  obtain ⟨next', t'⟩ := out'
  cases h1
  cases next with
  | some f => exact ⟨rfl, h2⟩
  | none =>
    have ho : t'.opened = movedUp k t.opened := h2.opened
    have hr := h2.record (.opened t.opened request)
    dsimp only
    rw [ho]
    refine ⟨rfl, hr.refusal, hr.upcoming, ?_, hr.script, hr.replies, hr.events⟩
    exact Nat.add_right_comm _ _ _

theorem close (h : r.Mirrors k old old' r') (c : ClientId) :
    (r'.close (movedUp k c)).1 = (r.close c).1 ∧
      (r.close c).2.Mirrors k old old' (r'.close (movedUp k c)).2 :=
  ⟨congrArg (fun s : ClientScript => s.close.getD (.ok .none)) (h.script c), h.record (.closed c)⟩

theorem takeReply (h : r.Mirrors k old old' r') (command : String) :
    (r'.takeReply command).1 = (r.takeReply command).1 ∧
      (r.takeReply command).2.Mirrors k old old' (r'.takeReply command).2 := by
  unfold Remote.takeReply
  rw [h.replies]
  split
  · exact ⟨rfl, h.refusal, h.upcoming, h.opened, h.script, rfl, h.events⟩
  · exact ⟨rfl, h⟩

theorem send (h : r.Mirrors k old old' r') (c : ClientId) (call : Call) :
    (r'.send (movedUp k c) call).1 = (r.send c call).1 ∧
      (r.send c call).2.Mirrors k old old' (r'.send (movedUp k c) call).2 := by
  unfold Remote.send
  split
  · exact h.close c
  · have hr := h.record (.called c call)
    have hs : (r'.record (.called (movedUp k c) call)).script (movedUp k c) =
        (r.record (.called c call)).script c := h.script c
    dsimp only
    rw [hs]
    split
    · split
      · exact ⟨rfl, hr⟩
      · exact hr.takeReply call.command
    · exact hr.takeReply call.command

end Remote.Mirrors

/-- The surroundings of a pool answer alike for clients that are moved up. -/
theorem ConnectionPool.surroundings_renumber (request : ClientRequest) :
    (surroundings request).Renumber (movedUp k) (World.Mirrors k old old') := by
  constructor
  · intro r w w' h
    cases r with
    | supply => exact Remote.Mirrors.openClient h request
    | ping c => exact Remote.Mirrors.send h c { command := "ping" }
    | close c =>
      obtain ⟨h1, h2⟩ := Remote.Mirrors.close h c
      exact ⟨congrArg (Except.map fun _ => ()) h1, h2⟩
  · intro ns w w' h
    show (w.noteAll ns).remote.Mirrors k old old' (w'.noteAll ns).remote
    rw [World.noteAll_remote, World.noteAll_remote]
    exact h

/-! ## Operations -/

/-- What an operation comes to, and what the other comes to with clients moved up. -/
inductive Mirrored {α β : Type} (k : Nat) (rel : α → β → Prop) :
    Except Fault α → Except Fault β → Prop
  | ok {a b} (h : rel a b) : Mirrored k rel (.ok a) (.ok b)
  | error {f} : Mirrored k rel (.error f) (.error (f.renumbered (movedUp k)))

theorem Mirrored.refl {α : Type} {x : Except Fault α} (h : ∀ f, x = .error f → f.Numberless) :
    Mirrored k Eq x x := by
  cases x with
  | ok a => exact .ok rfl
  | error f =>
    have he : Mirrored k Eq (.error f : Except Fault α) (.error (f.renumbered (movedUp k))) :=
      .error
    rwa [h f rfl] at he

theorem Mirrored.eq {α : Type} {rename : α → α} {x y : Except Fault α}
    (h : Mirrored k (fun a b => b = rename a) x y) : y = renumberedBy (movedUp k) rename x := by
  cases h with
  | ok h => exact congrArg Except.ok h
  | error => rfl

/-- The second operation does in the second state what the first does in the first state. -/
def Act.Mirrors {σ α β : Type} (same : σ → σ → Prop) (k : Nat) (rel : α → β → Prop)
    (act : Act σ α) (act' : Act σ β) : Prop :=
  ∀ s s', same s s' → Mirrored k rel (act.run s).1 (act'.run s').1 ∧
    same (act.run s).2 (act'.run s').2

namespace Act.Mirrors

variable {σ α β γ δ : Type} {same : σ → σ → Prop} {rel : α → β → Prop}

theorem pure {a : α} {b : β} (h : rel a b) :
    Act.Mirrors same k rel (Pure.pure a) (Pure.pure b) := fun _ _ hs => ⟨.ok h, hs⟩

theorem throw {f f' : Fault} (h : f' = f.renumbered (movedUp k)) :
    Act.Mirrors same k rel (MonadExcept.throw f) (MonadExcept.throw f') := by
  subst h
  exact fun _ _ hs => ⟨.error, hs⟩

theorem lift {x : Except Fault α} {y : Except Fault β} (h : Mirrored k rel x y) :
    Act.Mirrors same k rel (liftM x) (liftM y) := by
  intro s s' hs
  cases h with
  | ok h => exact ⟨.ok h, hs⟩
  | error => exact ⟨.error, hs⟩

theorem get : Act.Mirrors same k same MonadState.get MonadState.get := fun _ _ hs => ⟨.ok hs, hs⟩

theorem change {g g' : σ → σ} (h : ∀ s s', same s s' → same (g s) (g' s')) :
    Act.Mirrors same k Eq (modify g) (modify g') := fun _ _ hs => ⟨.ok rfl, h _ _ hs⟩

theorem bind {before : γ → δ → Prop} {x : Act σ γ} {x' : Act σ δ} {g : γ → Act σ α}
    {g' : δ → Act σ β} (hx : Act.Mirrors same k before x x')
    (hg : ∀ a b, before a b → Act.Mirrors same k rel (g a) (g' b)) :
    Act.Mirrors same k rel (x >>= g) (x' >>= g') := by
  intro s s' hs
  obtain ⟨h1, h2⟩ := hx s s' hs
  rw [run_bind, run_bind]
  generalize x.run s = out at h1 h2
  generalize x'.run s' = out' at h1 h2
  obtain ⟨a, t⟩ := out
  obtain ⟨b, t'⟩ := out'
  cases h1 with
  | ok h => exact hg _ _ h t t' h2
  | error => exact ⟨.error, h2⟩

/-- After an operation that comes to the same. -/
theorem after {x x' : Act σ γ} {g : γ → Act σ α} {g' : γ → Act σ β}
    (hx : Act.Mirrors same k Eq x x') (hg : ∀ a, Act.Mirrors same k rel (g a) (g' a)) :
    Act.Mirrors same k rel (x >>= g) (x' >>= g') :=
  bind hx fun a _ h => h ▸ hg a

/-- What would follow a fault does not happen. -/
theorem thrown {f : Fault} {g : γ → Act σ α} {g' : δ → Act σ β}
    (h : f.renumbered (movedUp k) = f) : Act.Mirrors same k rel (MonadExcept.throw f >>= g)
      (MonadExcept.throw f >>= g') :=
  bind (throw h.symm : Act.Mirrors same k (fun _ _ => False) _ _) fun _ _ h => h.elim

theorem mapM {f : γ → Act σ α} {f' : γ → Act σ α} (h : ∀ c, Act.Mirrors same k Eq (f c) (f' c))
    (cs : List γ) : Act.Mirrors same k Eq (cs.mapM f) (cs.mapM f') := by
  induction cs with
  | nil => exact pure rfl
  | cons c cs ih =>
    rw [List.mapM_cons, List.mapM_cons]
    exact after (h c) fun a => after ih fun as => pure rfl

theorem forIn {f f' : γ → Unit → Act σ (ForInStep Unit)}
    (h : ∀ c u, Act.Mirrors same k Eq (f c u) (f' c u)) (cs : List γ) (u : Unit) :
    Act.Mirrors same k Eq (ForIn.forIn cs u f) (ForIn.forIn cs u f') := by
  induction cs generalizing u with
  | nil => exact pure rfl
  | cons c cs ih =>
    rw [List.forIn_cons, List.forIn_cons]
    refine after (h c u) fun step => ?_
    cases step with
    | done u => exact pure rfl
    | yield u => exact ih u

end Act.Mirrors

/-! ## Connectors -/

theorem ServerAddress.parse_numberless (token : List Char) {f : Fault}
    (h : parse token = .error f) : f.Numberless := by
  unfold parse at h
  dsimp only at h
  split at h
  · cases h
  · split at h
    · cases h
      exact fun _ => rfl
    · split at h
      · cases h
        exact fun _ => rfl
      · split at h <;> cases h
        exact fun _ => rfl
  · cases h
    exact fun _ => rfl

theorem ServerAddress.resolve_numberless (hosts : String) {f : Fault}
    (h : resolve hosts = .error f) : f.Numberless := by
  unfold resolve at h
  generalize Text.split ',' hosts.toList = tokens at h
  induction tokens with
  | nil => cases h
  | cons token rest ih =>
    rw [List.mapM_cons] at h
    cases hp : parse token with
    | error e =>
      rw [hp] at h
      cases h
      exact parse_numberless token hp
    | ok a =>
      cases hr : rest.mapM parse with
      | error e =>
        rw [hp, hr] at h
        cases h
        exact ih hr
      | ok as =>
        rw [hp, hr] at h
        cases h

theorem Transport.build_numberless {host : String} {port : Int} {password : Value}
    {options : Options} {f : Fault} (h : build host port password options = .error f) :
    f.Numberless := by
  unfold build timeoutOf at h
  dsimp only at h
  split at h
  · split at h
    · cases h
    · split at h <;> cases h
      exact fun _ => rfl
  · cases h

theorem Transport.describe_numberless {t : Transport} {f : Fault} (h : t.describe = .error f) :
    f.Numberless := by
  cases hs : t.isShowable with
  | true =>
    obtain ⟨text, ht⟩ := describe_of_isShowable hs
    cases ht.symm.trans h
  | false =>
    cases (describe_of_not_isShowable hs).symm.trans h
    exact fun _ => rfl

theorem ServerAddress.showAll_numberless {as : List ServerAddress} {f : Fault}
    (h : showAll as = .error f) : f.Numberless := by
  unfold showAll at h
  split at h <;> cases h
  exact fun _ => rfl

namespace Connector

open Act

variable {c : Connector}

/-- A source of clients, and the same source with its client moved up. -/
def SourceMoved (k : Nat) : ClientSource → ClientSource → Prop
  | .direct a, source => source = .direct (movedUp k a)
  | .supplier request, source => source = .supplier request

theorem note_mirrors (n : Notice) :
    (note n).Mirrors (World.Mirrors k old old') k Eq (note n) :=
  .change fun _ _ h => h

theorem openClient_mirrors (request : ClientRequest) :
    (openClient request).Mirrors (World.Mirrors k old old') k (fun a b => b = a.map (movedUp k))
      (openClient request) := by
  intro w w' h
  obtain ⟨h1, h2⟩ := Remote.Mirrors.openClient h request
  exact ⟨.ok h1, h2⟩

theorem resolve_mirrors (hosts : String) :
    (resolve hosts).Mirrors (World.Mirrors k old old') k Eq (resolve hosts) :=
  .after (.lift (.refl fun _ => ServerAddress.resolve_numberless hosts)) fun _ =>
    .after (note_mirrors _) fun _ => .pure rfl

theorem noteDatabase_mirrors (n? : Option Int) :
    (noteDatabase n?).Mirrors (World.Mirrors k old old') k Eq (noteDatabase n?) := by
  unfold noteDatabase
  split
  · split
    · split
      · exact note_mirrors _
      · exact .throw rfl
    · exact .pure rfl
  · exact .pure rfl

theorem transport_mirrors (address : ServerAddress) (password : Value) (options : Options) :
    (transport address password options).Mirrors (World.Mirrors k old old') k Eq
      (transport address password options) := by
  refine .after (.lift (.refl fun _ => Transport.build_numberless)) fun t => ?_
  dsimp only
  split
  · exact .after (note_mirrors _) fun _ => .pure rfl
  · exact .pure rfl

theorem standalone_mirrors (address : ServerAddress) (password : Value) (options : Options) :
    (c.standalone address password options).Mirrors (World.Mirrors k old old') k (SourceMoved k)
      (c.standalone address password options) := by
  refine .after (transport_mirrors address password options) fun t => ?_
  refine .after (.lift (.refl fun f => Transport.describe_numberless)) fun _ => ?_
  refine .after (note_mirrors _) fun _ => ?_
  by_cases hc : c.pooling = true
  · rw [if_pos hc]
    exact .pure rfl
  · rw [if_neg hc]
    refine .bind (openClient_mirrors _) fun answer answer' h => ?_
    subst h
    cases answer with
    | ok client => exact .after (note_mirrors _) fun _ => .pure rfl
    | error f => exact .throw rfl

theorem clusterSource_mirrors (addresses : List ServerAddress) (request : ClientRequest) :
    (c.clusterSource addresses request).Mirrors (World.Mirrors k old old') k (SourceMoved k)
      (c.clusterSource addresses request) := by
  unfold clusterSource
  by_cases hc : c.pooling = true
  · rw [if_pos hc]
    exact .pure rfl
  · rw [if_neg hc]
    refine .bind (openClient_mirrors _) fun answer answer' h => ?_
    subst h
    cases answer with
    | ok client => exact .after (note_mirrors _) fun _ => .pure rfl
    | error f =>
      dsimp only [Except.map]
      split
      · exact .after (.lift (.refl fun f => ServerAddress.showAll_numberless)) fun _ =>
          .after (note_mirrors _) fun _ => .throw rfl
      · exact .throw rfl

theorem cluster_mirrors (addresses : List ServerAddress) (password : Value) (options : Options) :
    (c.cluster addresses password options).Mirrors (World.Mirrors k old old') k (SourceMoved k)
      (c.cluster addresses password options) := by
  refine .after (.mapM (fun a => transport_mirrors a password options) addresses) fun ts => ?_
  cases ts with
  | nil => exact .throw rfl
  | cons t rest =>
    exact .after (noteDatabase_mirrors _) fun _ => clusterSource_mirrors _ _

theorem connect_mirrors (topology : Topology) (addresses : List ServerAddress) (password : Value)
    (options : Options) :
    (c.connect topology addresses password options).Mirrors (World.Mirrors k old old') k
      (SourceMoved k) (c.connect topology addresses password options) := by
  cases topology with
  | cluster => exact cluster_mirrors addresses password options
  | standalone =>
    cases addresses with
    | nil => exact .throw rfl
    | cons a rest => exact standalone_mirrors a password options

end Connector

/-! ## Managers -/

namespace Manager

open Act

variable {plan : ManagerPlan}

theorem facadeOf_mirrors {source source' : ClientSource}
    (h : Connector.SourceMoved k source source') :
    (facadeOf plan source).Mirrors (World.Mirrors k old old') k (fun f f' => f' = f.moved k)
      (facadeOf plan source') := by
  intro w w' hw
  cases source with
  | direct a =>
    cases h
    exact ⟨.ok rfl, hw⟩
  | supplier request =>
    cases h
    obtain ⟨h1, h2⟩ := Pool.openPool_renumbered ⟨poolName plan, plan.limits⟩
      (ConnectionPool.surroundings_renumber request) hw
    show Mirrored k _ (facadeOf plan (.supplier request) w).1
      (facadeOf plan (.supplier request) w').1 ∧ _
    simp only [facadeOf, ConnectionPool.create]
    refine ⟨?_, h2⟩
    rw [h1]
    cases
      (Pool.openPool (ConnectionPool.surroundings request) ⟨poolName plan, plan.limits⟩ w).1 with
    | ok core => exact .ok rfl
    | error f => exact .error

theorem establish_mirrors (hosts : String) (password : Value) (options : Options) :
    (establish plan hosts password options).Mirrors (World.Mirrors k old old') k
      (fun a b => b = (a.1.moved k, a.2)) (establish plan hosts password options) := by
  refine .after (Connector.resolve_mirrors hosts) fun addresses => ?_
  dsimp only
  split
  · exact .thrown rfl
  · refine .bind (Connector.connect_mirrors _ _ _ _) fun source source' h => ?_
    refine .bind (facadeOf_mirrors h) fun f f' hf => ?_
    subst hf
    exact .pure rfl

/-! ## Handles, commands and closes -/

variable {s s' : Site} {f : Facade}

theorem onWorld_mirrors {α β : Type} {rel : α → β → Prop} {act : Act World α} {act' : Act World β}
    (h : act.Mirrors (World.Mirrors k old old') k rel act') :
    (onWorld act).Mirrors (Site.Mirrors k old old') k rel (onWorld act') := by
  intro s s' hs
  obtain ⟨h1, h2⟩ := h s.world s'.world hs.remote
  exact ⟨h1, hs.plan, hs.closed, hs.facade, h2⟩

theorem note_mirrors (n : Notice) :
    (note n).Mirrors (Site.Mirrors k old old') k Eq (note n) :=
  onWorld_mirrors (Connector.note_mirrors n)

theorem onFacade_mirrors {α β : Type} {rel : α → β → Prop}
    {act : Facade → World → Except Fault α × Facade × World}
    {act' : Facade → World → Except Fault β × Facade × World}
    (h : ∀ w w', World.Mirrors k old old' w w' →
      Mirrored k rel (act f w).1 (act' (f.moved k) w').1 ∧
        (act' (f.moved k) w').2.1 = (act f w).2.1.moved k ∧
        World.Mirrors k old old' (act f w).2.2 (act' (f.moved k) w').2.2) :
    (onFacade f act).Mirrors (Site.Mirrors k old old') k rel (onFacade (f.moved k) act') := by
  intro s s' hs
  obtain ⟨h1, h2, h3⟩ := h s.world s'.world hs.remote
  exact ⟨h1, hs.plan, hs.closed, congrArg some h2, h3⟩

/-- A call of the pool, and the same call with clients moved up. -/
theorem perform_mirrors (call call' : Pool.Surroundings World → Pool.Policy → Pool.Core → World →
      Pool.Result × Pool.Core × World) {p : ConnectionPool} {w w' : World}
    (h : Pool.Alike (movedUp k) (World.Mirrors k old old')
      (call (ConnectionPool.surroundings p.request) p.policy p.core w)
      (call' (ConnectionPool.surroundings p.request) p.policy (p.core.renumbered (movedUp k)) w')) :
    ((p.moved k).perform call' w').1 = Pool.Result.renumbered (movedUp k) (p.perform call w).1 ∧
      ((p.moved k).perform call' w').2.1 = (p.perform call w).2.1.moved k ∧
      World.Mirrors k old old' (p.perform call w).2.2 ((p.moved k).perform call' w').2.2 := by
  obtain ⟨h1, h2, h3⟩ := h
  exact ⟨h1, congrArg (fun core : Pool.Core => { p with core }) h2, h3⟩

theorem handle_pooled (t : Topology) (p : ConnectionPool) (w : World) :
    ((⟨t, .pooled p⟩ : Facade).handle w).1 =
      handleOf t (p.perform (fun s policy => Pool.borrow s policy none) w).1 := by
  simp only [Facade.handle]
  generalize p.perform (fun s policy => Pool.borrow s policy none) w = out
  obtain ⟨r, q, v⟩ := out
  cases r with
  | error e => rfl
  | ok got => cases got <;> rfl

theorem facadeHandle_mirrors {w w' : World} (hw : World.Mirrors k old old' w w') :
    Mirrored k (fun h h' : Handle => h' = h.moved k) (f.handle w).1 ((f.moved k).handle w').1 ∧
      ((f.moved k).handle w').2.1 = (f.handle w).2.1.moved k ∧
      World.Mirrors k old old' (f.handle w).2.2 ((f.moved k).handle w').2.2 := by
  obtain ⟨t, b⟩ := f
  cases b with
  | direct client => exact ⟨.ok rfl, rfl, hw⟩
  | pooled p =>
    obtain ⟨h1, h2, h3⟩ := perform_mirrors (fun s policy => Pool.borrow s policy none)
      (fun s policy => Pool.borrow s policy none) (Pool.borrow_renumbered p.policy
        (movedUp_injective k) (ConnectionPool.surroundings_renumber p.request) p.core hw)
    refine ⟨?_, congrArg (fun p => (⟨t, .pooled p⟩ : Facade)) h2, h3⟩
    show Mirrored k _ (Facade.handle ⟨t, .pooled p⟩ w).1
      (Facade.handle ⟨t, .pooled (p.moved k)⟩ w').1
    rw [handle_pooled, handle_pooled, h1]
    cases (p.perform (fun s policy => Pool.borrow s policy none) w).1 with
    | error e => exact .error
    | ok got =>
      cases got with
      | none => exact .error
      | some c => exact .ok rfl

theorem facadeRelease_mirrors (h : Handle) {w w' : World} (hw : World.Mirrors k old old' w w') :
    Mirrored k Eq (f.release h w).1 ((f.moved k).release (h.moved k) w').1 ∧
      ((f.moved k).release (h.moved k) w').2.1 = (f.release h w).2.1.moved k ∧
      World.Mirrors k old old' (f.release h w).2.2 ((f.moved k).release (h.moved k) w').2.2 := by
  obtain ⟨t, b⟩ := f
  cases b with
  | direct client => exact ⟨.ok rfl, rfl, hw⟩
  | pooled p =>
    obtain ⟨h1, h2, h3⟩ := perform_mirrors (fun s policy => Pool.giveBack s policy h.client)
      (fun s policy => Pool.giveBack s policy (movedUp k h.client))
      (Pool.giveBack_renumbered p.policy (movedUp_injective k)
        (ConnectionPool.surroundings_renumber p.request) h.client p.core hw)
    refine ⟨?_, congrArg (fun p => (⟨t, .pooled p⟩ : Facade)) h2, h3⟩
    show Mirrored k Eq
      ((p.perform (fun s policy => Pool.giveBack s policy h.client) w).1.map fun _ => ())
      (((p.moved k).perform (fun s policy => Pool.giveBack s policy (movedUp k h.client)) w').1.map
        fun _ => ())
    rw [h1]
    cases (p.perform (fun s policy => Pool.giveBack s policy h.client) w).1 with
    | error e => exact .error
    | ok got => exact .ok rfl

theorem handle_mirrors :
    handle.Mirrors (Site.Mirrors k old old') k (fun h h' => h' = h.moved k) handle := by
  refine .bind .get fun s s' hs => ?_
  have hf := hs.facade
  have hc := hs.closed
  cases hm : s.manager.facade with
  | none =>
    rw [hm] at hf
    simp only [hm, hf, Option.map]
    exact .throw rfl
  | some f =>
    rw [hm] at hf
    have hp : (f.moved k).pool?.isNone = f.pool?.isNone := by
      obtain ⟨t, b⟩ := f
      cases b <;> rfl
    simp only [hm, hf, hc, Option.map, hp]
    split
    · exact .thrown rfl
    · exact onFacade_mirrors fun _ _ => facadeHandle_mirrors

theorem release_mirrors (h : Option Handle) :
    (release h).Mirrors (Site.Mirrors k old old') k Eq (release (h.map (Handle.moved k))) := by
  refine .bind .get fun s s' hs => ?_
  have hf := hs.facade
  simp only [hs.plan, hf]
  cases s.manager.plan.pooling with
  | false => exact .pure rfl
  | true =>
    cases h with
    | none => exact .pure rfl
    | some h =>
      cases s.manager.facade with
      | none => exact .pure rfl
      | some f => exact onFacade_mirrors fun _ _ => facadeRelease_mirrors h

theorem thenAlways_mirrors {α β : Type} {rel : α → β → Prop} {same : Site → Site → Prop}
    {body : Act Site α} {body' : Act Site β} {closing closing' : Act Site Unit}
    (hb : body.Mirrors same k rel body') (hc : closing.Mirrors same k Eq closing') :
    (thenAlways body closing).Mirrors same k rel (thenAlways body' closing') := by
  intro s s' hs
  obtain ⟨h1, h2⟩ := hb s s' hs
  obtain ⟨h3, h4⟩ := hc _ _ h2
  refine ⟨?_, h4⟩
  show Mirrored k rel ((closing.run (body.run s).2).1.bind fun _ => (body.run s).1)
    ((closing'.run (body'.run s').2).1.bind fun _ => (body'.run s').1)
  generalize (closing.run (body.run s).2).1 = r at h3
  generalize (closing'.run (body'.run s').2).1 = r' at h3
  cases h3 with
  | ok => exact h1
  | error => exact .error

theorem withHandle_mirrors {α β : Type} {rel : α → β → Prop} {body : Handle → Act Site α}
    {body' : Handle → Act Site β}
    (hb : ∀ h, (body h).Mirrors (Site.Mirrors k old old') k rel (body' (h.moved k))) :
    (withHandle body).Mirrors (Site.Mirrors k old old') k rel (withHandle body') := by
  refine .bind handle_mirrors fun h h' he => ?_
  subst he
  exact thenAlways_mirrors (hb h) (release_mirrors (some h))

theorem send_mirrors (h : Handle) (call : Call) :
    (send h call).Mirrors (Site.Mirrors k old old') k Eq (send (h.moved k) call) := by
  intro s s' hs
  obtain ⟨h1, h2⟩ := hs.remote.send h.client call
  exact ⟨.ok h1.symm, hs.plan, hs.closed, hs.facade, h2⟩

theorem resultOf_numberless {command : String} {o : Outcome} {f : Fault}
    (h : resultOf command o = .error f) : f.Numberless := by
  cases o with
  | ok v => cases h
  | error e =>
    dsimp only [resultOf] at h
    split at h
    · cases h
      exact fun _ => rfl
    · split at h <;> cases h <;> exact fun _ => rfl

theorem execute_mirrors (call : Call) :
    (execute call).Mirrors (Site.Mirrors k old old') k Eq (execute call) := by
  refine withHandle_mirrors fun h => .after (send_mirrors h call) fun outcome => ?_
  refine .after (.forIn (fun n _ => .after (note_mirrors n) fun _ => .pure rfl) _ _) fun _ => ?_
  exact .lift (.refl fun _ => resultOf_numberless)

theorem executeGiven_mirrors (args : List Value) (named : Fields) :
    (executeGiven args named).Mirrors (Site.Mirrors k old old') k Eq (executeGiven args named) := by
  unfold executeGiven
  split
  · exact .throw rfl
  · exact execute_mirrors _
  · exact withHandle_mirrors fun _ => .throw rfl

/-- The executors of two managers are different objects, for the same category. -/
theorem executor_mirrors (category : Value) :
    (executor category).Mirrors (Site.Mirrors k old old') k (fun e e' => e'.category = e.category)
      (executor category) := by
  intro s s' hs
  rw [executor_run, executor_run]
  cases Category.ofValue? category with
  | none => exact ⟨.error, hs⟩
  | some c =>
    exact ⟨.ok ((obtain_category _ c).trans (obtain_category _ c).symm), hs.plan, hs.closed,
      hs.facade, hs.remote⟩

theorem bind_numberless {c : Command} {args : List Value} {named : Fields} {f : Fault}
    (h : c.bind args named = .error f) : f.Numberless := by
  unfold Command.bind at h
  dsimp only at h
  split at h
  · cases h
    exact fun _ => rfl
  · split at h <;> cases h
    exact fun _ => rfl

theorem command_mirrors (category : Value) (name : String) (args : List Value) (named : Fields) :
    (command category name args named).Mirrors (Site.Mirrors k old old') k Eq
      (command category name args named) := by
  refine .bind (executor_mirrors category) fun e e' he => ?_
  rw [he]
  cases ExecutorMember.find? e.category name with
  | none => exact .throw rfl
  | some m =>
    cases m with
    | «attribute» => exact .throw rfl
    | sender => exact executeGiven_mirrors args named
    | command c => exact .after (.lift (.refl fun _ => bind_numberless)) fun _ => execute_mirrors _

theorem shutPool_mirrors (f : Facade) (p : ConnectionPool) :
    (shutPool f p).Mirrors (Site.Mirrors k old old') k Eq (shutPool (f.moved k) (p.moved k)) := by
  refine onFacade_mirrors fun w w' hw => ?_
  obtain ⟨h1, h2, h3⟩ := perform_mirrors Pool.close Pool.close (Pool.close_renumbered p.policy
    (movedUp_injective k) (ConnectionPool.surroundings_renumber p.request) p.core hw)
  refine ⟨?_, congrArg (fun p => (⟨f.topology, .pooled p⟩ : Facade)) h2, h3⟩
  show Mirrored k Eq (Except.map (fun _ => ()) (p.perform _ w).1)
    (Except.map (fun _ => ()) ((p.moved k).perform _ w').1)
  rw [h1]
  cases (p.perform Pool.close w).1 with
  | error e => exact .error
  | ok got => exact .ok rfl

theorem closePool_mirrors :
    closePool.Mirrors (Site.Mirrors k old old') k Eq closePool := by
  refine .bind .get fun s s' hs => ?_
  simp only [hs.facade]
  cases s.manager.facade with
  | none => exact note_mirrors _
  | some f =>
    obtain ⟨t, b⟩ := f
    cases b with
    | direct client => exact note_mirrors _
    | pooled p => exact shutPool_mirrors ⟨t, .pooled p⟩ p

theorem closeClient_mirrors (client : ClientId) :
    (closeClient client).Mirrors (Site.Mirrors k old old') k Eq
      (closeClient (movedUp k client)) := by
  refine .bind .get fun s s' hs => ?_
  obtain ⟨h1, h2⟩ := hs.remote.close client
  simp only [h1]
  refine .after (fun _ _ _ => ⟨.ok rfl, hs.plan, hs.closed, hs.facade, h2⟩) fun _ => ?_
  split
  · exact note_mirrors _
  · exact .pure rfl

theorem close_mirrors : close.Mirrors (Site.Mirrors k old old') k Eq close := by
  refine .bind .get fun s s' hs => ?_
  simp only [hs.closed]
  split
  · exact .pure rfl
  · refine .after (.change fun _ _ h => ⟨h.plan, rfl, h.facade, h.remote⟩) fun _ => ?_
    simp only [hs.facade]
    cases s.manager.facade with
    | none => exact note_mirrors _
    | some f =>
      obtain ⟨t, b⟩ := f
      cases b with
      | direct client => exact .after (closeClient_mirrors client) fun _ => note_mirrors _
      | pooled p => exact .after (shutPool_mirrors ⟨t, .pooled p⟩ p) fun _ => note_mirrors _

theorem init_mirrors (hosts : String) (password : Value) (options : Options) :
    (init hosts password options).Mirrors (Site.Mirrors k old old') k Eq
      (init hosts password options) := by
  refine .bind .get fun s s' hs => ?_
  have hi : s'.manager.facade.isSome = s.manager.facade.isSome := by
    rw [hs.facade, Option.isSome_map]
  simp only [hs.closed, hi, hs.plan]
  split
  · exact .thrown rfl
  · split
    · exact .thrown rfl
    · refine .bind (onWorld_mirrors (establish_mirrors hosts password options)) fun a b h => ?_
      subst h
      refine .after (.change fun _ _ h => ⟨h.plan, h.closed, rfl, h.remote⟩) fun _ => ?_
      exact note_mirrors _

theorem stats_mirrors (hs : s.Mirrors k old old' s') : s'.manager.stats = s.manager.stats := by
  rw [stats, stats, pool?, pool?, hs.facade]
  cases s.manager.facade with
  | none => rfl
  | some f =>
    obtain ⟨t, b⟩ := f
    cases b with
    | direct client => rfl
    | pooled p =>
      simp [Facade.moved, Backend.moved, Facade.pool?, ConnectionPool.stats, ConnectionPool.moved,
        Pool.Core.stats, Pool.Core.renumbered]

end Manager
end
end RedisGateway
