import RedisGateway.Command.Registry
import RedisGateway.Facade
import RedisGateway.Settings.Resolve

/-!
Connection managers. A manager is initialized at most once, hands out command handles and executors,
and is closed once. An initialization that fails leaves the manager as it was.
-/

namespace RedisGateway

/-- What a manager is made with. -/
structure ManagerPlan where
  codec : Codec := .default
  topology : Topology := .standalone
  pooling : Bool := false
  /-- The limits of the pool, if there is one. -/
  limits : Pool.Limits := {}
  deriving DecidableEq, Repr, Inhabited

/-- A connection manager. -/
structure Manager where
  plan : ManagerPlan
  /-- What a successful initialization made. -/
  facade : Option Facade := none
  closed : Bool := false
  registry : Registry := {}
  deriving Repr

/-- A manager and the world that it works in. -/
structure Site where
  manager : Manager
  world : World

namespace Manager

/-- A new manager. -/
def create (plan : ManagerPlan) (w : World) : Manager × World :=
  ({ plan }, w.note (.managerCreated plan.topology plan.pooling plan.codec.name))

/-- An operation on the world alone. -/
def onWorld {α : Type} (act : Act World α) : Act Site α := fun site =>
  let (result, world) := act.run site.world
  (result, { site with world })

def note (n : Notice) : Act Site Unit := onWorld (Connector.note n)

/-- The name of a manager's pool. -/
def poolName (plan : ManagerPlan) : String := "redis-" ++ plan.topology.name ++ "-pool"

/-- The facade around a source of clients. A pool opens its first connections. -/
def facadeOf (plan : ManagerPlan) (source : ClientSource) : Act World Facade := fun w =>
  match source with
  | .direct client => (.ok ⟨plan.topology, .direct client⟩, w)
  | .supplier request =>
    let (opened, w) := ConnectionPool.create ⟨poolName plan, plan.limits⟩ request w
    (opened.map fun p => ⟨plan.topology, .pooled p⟩, w)

/-- What an initialization makes. A single node has a single address. -/
def establish (plan : ManagerPlan) (hosts : String) (password : Value) (options : Options) :
    Act World (Facade × Nat) := do
  let addresses ← Connector.resolve hosts
  if plan.topology = .standalone ∧ 1 < addresses.length then throw (.multipleHosts hosts)
  let connector : Connector := ⟨plan.codec, plan.pooling⟩
  let source ← connector.connect plan.topology addresses password options
  return (← facadeOf plan source, addresses.length)

/-- Initializes the manager. -/
def init (hosts : String) (password : Value) (options : Options) : Act Site Unit := do
  let m := (← get).manager
  if m.closed then throw .managerClosed
  if m.facade.isSome then throw .alreadyInitialized
  let (facade, count) ← onWorld (establish m.plan hosts password options)
  modify fun s => { s with manager := { s.manager with facade := some facade } }
  note (.managerInitialized count m.plan.topology m.plan.pooling)

/-- The pool of a manager that has one. -/
def pool? (m : Manager) : Option ConnectionPool := m.facade.bind (·.pool?)

/-- Runs an operation of the facade. -/
def onFacade {α : Type} (facade : Facade) (act : Facade → World → Except Fault α × Facade × World) :
    Act Site α := fun site =>
  let (result, facade, world) := act facade site.world
  (result, { manager := { site.manager with facade := some facade }, world })

/-- A handle for one command. After the close a manager with a pool leaves it to the pool to refuse
borrowers. -/
def handle : Act Site Handle := do
  let m := (← get).manager
  match m.facade with
  | none => throw .notInitialized
  | some facade =>
    if m.closed && facade.pool?.isNone then throw .managerClosed
    onFacade facade Facade.handle

/-- Runs a body, then a closing operation however the body ended. What the body came to stands,
unless the closing operation itself ends in a fault. -/
def thenAlways {σ α : Type} (body : Act σ α) (closing : Act σ Unit) : Act σ α := fun state =>
  let (result, state) := body.run state
  let (closed, state) := closing.run state
  (closed.bind fun _ => result, state)

/-- Gives a handle back. -/
def release (h : Option Handle) : Act Site Unit := do
  let m := (← get).manager
  match m.plan.pooling, h, m.facade with
  | true, some h, some facade => onFacade facade fun f w => f.release h w
  | _, _, _ => pure ()

/-- Runs a body with a handle, which is given back however the body ends. -/
def withHandle {α : Type} (body : Handle → Act Site α) : Act Site α := do
  let h ← handle
  thenAlways (body h) (release (some h))

/-- Sends a command through a handle. -/
def send (h : Handle) (call : Call) : Act Site Outcome := fun site =>
  let (outcome, remote) := site.world.remote.send h.client call
  (.ok outcome, { site with world := { site.world with remote } })

/-- What a caller gets for a command's outcome: a connection that is lost or too slow and a refusal
by the server or the client are told apart, any other failure is passed on. -/
def resultOf (command : String) : Outcome → Except Fault Value
  | .ok v => .ok v
  | .error f =>
    if f.kind.isConnectivity then .error (.connectionLost command f)
    else if f.kind.isClientError then .error (.commandFailed command f)
    else .error (.passedOn f)

/-- What is reported about a command's outcome. -/
def outcomeNotices (command : String) : Outcome → List Notice
  | .ok _ => []
  | .error f => if f.kind.isConnectivity then [.connectionLost command f] else []

/-- Runs one command on a handle of its own. -/
def execute (call : Call) : Act Site Value :=
  withHandle fun h => do
    let outcome ← send h call
    for n in outcomeNotices call.command outcome do note n
    resultOf call.command outcome

/-- The executor of the category that a value names. -/
def executor (category : Value) : Act Site Executor := do
  let m := (← get).manager
  let (e, registry) ← m.registry.ofValue category
  modify fun s => { s with manager := { s.manager with registry } }
  return e

/-- Runs any command on a handle of its own. That the command is no name shows only then. -/
def executeGiven (args : List Value) (named : Fields) : Act Site Value :=
  match Command.given? args named with
  | none => throw .argumentMismatch
  | some (.text command, arguments, keywords) => execute { command, arguments, keywords }
  | some _ => withHandle fun _ => throw .argumentMismatch

/-- Calls a command of a category by name. The arguments are checked before a handle is taken. -/
def command (category : Value) (name : String) (args : List Value) (named : Fields) :
    Act Site Value := do
  let e ← executor category
  match ExecutorMember.find? e.category name with
  | none => throw .noSuchCommand
  | some .attribute => throw .argumentMismatch
  | some .sender => executeGiven args named
  | some (.command c) => execute (← c.bind args named)

def stats (m : Manager) : Option Pool.Stats := m.pool?.map (·.stats)

/-- Closes a pool. -/
def shutPool (facade : Facade) (p : ConnectionPool) : Act Site Unit :=
  onFacade facade fun f w =>
    let (result, p, w) := p.perform Pool.close w
    (result.map fun _ => (), { f with backend := .pooled p }, w)

/-- Closes the pool of a manager that has one. -/
def closePool : Act Site Unit := do
  match (← get).manager.facade with
  | some facade => match facade.pool? with
    | some p => shutPool facade p
    | none => note .noPoolToClose
  | none => note .noPoolToClose

/-- Closes the client that was open for good. -/
def closeClient (client : ClientId) : Act Site Unit := do
  let site ← get
  let (answer, remote) := site.world.remote.close client
  set { site with world := { site.world with remote } }
  match answer with
  | .error f => note (.clientClosingFailed f)
  | .ok _ => pure ()

/-- Closes the manager, once. -/
def close : Act Site Unit := do
  let m := (← get).manager
  if m.closed then return
  modify fun s => { s with manager := { s.manager with closed := true } }
  match m.facade with
  | none => note .unusedManagerClosed
  | some facade =>
    match facade.backend with
    | .pooled p => shutPool facade p
    | .direct client => closeClient client
    note .managerClosed

/-- The plan that settings make. -/
def planOf (s : Settings) : ManagerPlan :=
  { codec := .preset s.codec
    topology := if s.connection.cluster then .cluster else .standalone
    pooling := s.connection.pooling, limits := s.pool }

/-- A manager that is made and initialized from settings. -/
def ofSettings (s : Settings) (w : World) : Except Fault Manager × World :=
  let (m, w) := create (planOf s) w
  let c := s.connection
  let (result, site) := (init c.hosts (.text c.password) (.record c.options)).run ⟨m, w⟩
  (result.map fun _ => site.manager, site.world)

end Manager
end RedisGateway
