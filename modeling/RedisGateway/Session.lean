import RedisGateway.Manager

/-!
Sessions: scripts that make managers, drive them step by step, and show what each step comes to and
what it asked of the remote side.
-/

namespace RedisGateway

/-- The version of the library. -/
def version : String := "0.1.0"

/-- The handle that a step gives back. -/
inductive HandleChoice where
  | nothing
  /-- A handle that an earlier step showed, by its number. -/
  | shown (number : Int)
  /-- A handle that no manager handed out. -/
  | foreign
  deriving Repr

/-- One step of a session. -/
inductive SessionStep where
  /-- Makes a manager; the limits are given by field or come from the environment. -/
  | create (codec : Codec) (topology : Topology) (pooling : Bool) (limits : Option Fields)
  | createFromSettings (given : Fields)
  | init (hosts : String) (password : Value) (options : Options)
  | info
  | handle
  | release (choice : HandleChoice)
  /-- Takes a handle for a body, which may send a command and may fail. -/
  | use (call : Option Call) (failure : Option Failure)
  | executor (category : Value)
  /-- Asks for an executor by the accessor that its category has. -/
  | accessor (name : String)
  | execute (category : Value) (name : String) (args : List Value) (named : Fields)
  | stats
  | closePool
  | close
  /-- Takes steps and closes the manager after them; a fault ends them. -/
  | within (steps : List SessionStep) (failure : Option Failure)
  | refuse (failure : Option Failure)
  | reply (command : String) (outcomes : List Outcome)
  /-- Replaces fixed answers of a client; each of them may be left as it is or taken back. -/
  | script (client : Int) (ping close : Option (Option Outcome))
  /-- A step whose arguments cannot be made, which shows when it is taken. -/
  | faulty (fault : Fault)
  /-- The same for a step that is about a manager. -/
  | faultyOnManager (fault : Fault)

instance : Inhabited SessionStep := ⟨.info⟩

/-- What a step comes to. -/
inductive Shown where
  | nothing
  | skipped
  | truth
  | value (v : Value)
  | stats (s : Option Pool.Stats)
  | info (m : Manager)
  | handle (number : Nat) (h : Handle)
  | used (number : Nat) (h : Handle) (stats : Option Pool.Stats) (reply : Option Value)
  | executor (number : Nat) (category : Category)

/-- The state of a session. -/
structure Session where
  world : World := {}
  environment : Environment := {}
  /-- The managers in the order in which they were made, each with its number. -/
  managers : List (Nat × Manager) := []
  /-- The number of the manager that steps are about. -/
  current : Option Nat := none
  /-- The handles that were shown; the handle of a manager that has a single one is the same
  whenever it is shown. -/
  handles : List (Option Nat × Handle) := []
  /-- The executors that were shown, with the number of their manager. -/
  executors : List (Nat × Executor) := []

namespace Session

/-- A manager becomes the one that steps are about. -/
def adopt (s : Session) (m : Manager) : Session :=
  let number := s.managers.length
  { s with managers := s.managers ++ [(number, m)], current := some number }

/-- The manager that steps are about. -/
def manager? (s : Session) : Option (Nat × Manager) :=
  s.current.bind fun n => s.managers.find? (·.1 = n)

def setManager (s : Session) (number : Nat) (m : Manager) : Session :=
  { s with managers := s.managers.map fun p => if p.1 = number then (number, m) else p }

/-- The position of a value in a list, to which it is added if need be. -/
def numbered {α : Type} [BEq α] (xs : List α) (x : α) : Nat × List α :=
  match xs.idxOf? x with
  | some i => (i, xs)
  | none => (xs.length, xs ++ [x])

/-- Runs an operation of a manager. -/
def onManager {α : Type} (s : Session) (number : Nat) (m : Manager) (act : Act Site α) :
    Except Fault α × Session :=
  let (result, site) := act.run ⟨m, s.world⟩
  (result, { s.setManager number site.manager with world := site.world })

/-- Numbers a handle. Handles of a pool are all different. -/
def numberHandle (s : Session) (number : Nat) (h : Handle) : Nat × Session :=
  if h.pooled then (s.handles.length, { s with handles := s.handles ++ [(none, h)] })
  else
    let (n, handles) := numbered s.handles (some number, h)
    (n, { s with handles })

/-- Numbers an executor. -/
def numberExecutor (s : Session) (number : Nat) (e : Executor) : Nat × Session :=
  let (n, executors) := numbered s.executors (number, e)
  (n, { s with executors })

/-- What an operation without a result of its own comes to. -/
def quiet (p : Except Fault Unit × Session) : Except Fault Shown × Session :=
  (p.1.map fun _ => .nothing, p.2)

/-- Makes a manager. -/
def create (s : Session) (codec : Codec) (topology : Topology) (pooling : Bool)
    (limits : Option Fields) : Except Fault Shown × Session :=
  match Pool.Limits.resolve (limits.getD []) s.environment with
  | .error f => (.error f, s)
  | .ok limits =>
    let (m, world) := Manager.create { codec, topology, pooling, limits } s.world
    (.ok .nothing, { s with world }.adopt m)

/-- Makes a manager from settings. -/
def createFromSettings (s : Session) (given : Fields) : Except Fault Shown × Session :=
  match Settings.resolve given s.environment with
  | .error f => (.error f, s)
  | .ok settings =>
    let (made, world) := Manager.ofSettings settings s.world
    match made with
    | .error f => (.error f, { s with world })
    | .ok m => (.ok .nothing, { s with world }.adopt m)

/-- A handle for a body: the handle is numbered and the accounts are read before the command is
sent. -/
def use (s : Session) (number : Nat) (m : Manager) (call : Option Call)
    (failure : Option Failure) : Except Fault Shown × Session :=
  let (taken, s) := s.onManager number m Manager.handle
  match taken with
  | .error f => (.error f, s)
  | .ok h =>
    let (n, s) := s.numberHandle number h
    let body : Act Site Shown := do
      let stats := Manager.stats (← get).manager
      let reply ← match call with
        | none => pure none
        | some call => match ← Manager.send h call with
          | .ok v => pure (some v)
          | .error f => throw (.passedOn f)
      match failure with
      | some f => throw (.passedOn f)
      | none => return .used n h stats reply
    match s.manager? with
    | none => (.ok .skipped, s)
    | some (number, m) => s.onManager number m (Manager.thenAlways body (Manager.release (some h)))

/-- Asks a manager for the executor of a category, which is numbered. -/
def executor (s : Session) (number : Nat) (m : Manager) (category : Value) :
    Except Fault Shown × Session :=
  let (result, s) := s.onManager number m (Manager.executor category)
  match result with
  | .ok e => let (n, s) := s.numberExecutor number e; (.ok (.executor n e.category), s)
  | .error f => (.error f, s)

/-- A step on the manager with a number. -/
def onCurrent (s : Session) (number : Nat) (m : Manager) :
    SessionStep → Except Fault Shown × Session
  | .init hosts password options =>
    quiet (s.onManager number m (Manager.init hosts password options))
  | .info => (.ok (.info m), s)
  | .handle =>
    let (result, s) := s.onManager number m Manager.handle
    match result with
    | .ok h => let (n, s) := s.numberHandle number h; (.ok (.handle n h), s)
    | .error f => (.error f, s)
  | .release .nothing => quiet (s.onManager number m (Manager.release none))
  | .release (.shown n) =>
    match n.toNat?.bind (s.handles[·]?) with
    | some (_, h) => quiet (s.onManager number m (Manager.release (some h)))
    | none => (.ok .skipped, s)
  | .release .foreign =>
    let h : Handle := ⟨m.plan.topology, s.world.remote.opened, true⟩
    quiet (s.onManager number m (Manager.release (some h)))
  | .use call failure => s.use number m call failure
  | .executor category => s.executor number m category
  | .accessor name =>
    if (Category.ofValue? (.text name)).isSome then s.executor number m (.text name)
    else (.error .noSuchCommand, s)
  | .execute category name args named =>
    let (result, s) := s.onManager number m (Manager.command category name args named)
    (result.map .value, s)
  | .stats => (.ok (.stats m.stats), s)
  | .closePool => quiet (s.onManager number m Manager.closePool)
  | .close => quiet (s.onManager number m Manager.close)
  | .faultyOnManager f => (.error f, s)
  | _ => (.ok .nothing, s)

mutual

/-- Takes one step. -/
def play (s : Session) : SessionStep → Except Fault Shown × Session
  | .create codec topology pooling limits => s.create codec topology pooling limits
  | .createFromSettings given => s.createFromSettings given
  | .faulty f => (.error f, s)
  | .refuse failure =>
    (.ok .nothing,
      { s with world := { s.world with remote := { s.world.remote with refusal := failure } } })
  | .reply command outcomes =>
    (.ok .nothing,
      { s with world := { s.world with remote := s.world.remote.addReplies command outcomes } })
  | .script client ping close =>
    let remote := s.world.remote
    match client.toNat?.filter (· < remote.opened) with
    | none => (.ok .skipped, s)
    | some client =>
      let old := remote.script client
      let new : ClientScript :=
        { ping := ping.getD old.ping, close := close.getD old.close }
      (.ok .nothing, { s with world := { s.world with remote := remote.setScript client new } })
  | .within steps failure =>
    match s.manager? with
    | none => (.ok .skipped, s)
    | some (number, _) =>
      let (result, s) := playUntilFault s steps
      let result := result.bind fun _ => match failure with
        | some f => .error (.passedOn f)
        | none => .ok Shown.truth
      match s.managers.find? (·.1 = number) with
      | none => (result, s)
      | some (_, m) =>
        let (closed, s) := s.onManager number m Manager.close
        (closed.bind fun _ => result, s)
  | step =>
    match s.manager? with
    | none => (.ok .skipped, s)
    | some (number, m) => s.onCurrent number m step

/-- Takes steps until one of them ends in a fault. -/
def playUntilFault (s : Session) : List SessionStep → Except Fault Unit × Session
  | [] => (.ok (), s)
  | step :: rest =>
    match play s step with
    | (.ok _, s) => playUntilFault s rest
    | (.error f, s) => (.error f, s)

end

/-- Takes all steps and shows what each one comes to and which events it causes. -/
def playAll (s : Session) : List SessionStep → List (Except Fault Shown × List Event) × Session
  | [] => ([], s)
  | step :: rest =>
    let before := s.world.remote.events.length
    let (result, s) := s.play step
    let events := s.world.remote.events
    let new := (events.take (events.length - before)).reverse
    let (shown, last) := playAll s rest
    ((result, new) :: shown, last)

end Session
end RedisGateway
