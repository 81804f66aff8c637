import RedisGateway.Connector
import RedisGateway.Pool.Alone

/-!
Facades hand out command handles: always the same one around a client that is open for good, or one
for every use around a connection borrowed from a pool.
-/

namespace RedisGateway

/-- A pool of clients, all opened with the same request. -/
structure ConnectionPool where
  policy : Pool.Policy
  request : ClientRequest
  core : Pool.Core := {}
  deriving Repr

namespace ConnectionPool

/-- The remote side as the surroundings of a pool. -/
def surroundings (request : ClientRequest) : Pool.Surroundings World where
  answer
    | .supply, w =>
      let (answer, remote) := w.remote.openClient request
      (answer, { w with remote })
    | .ping c, w =>
      let (answer, remote) := w.remote.send c { command := "ping" }
      (answer, { w with remote })
    | .close c, w =>
      let (answer, remote) := w.remote.close c
      (answer.map fun _ => (), { w with remote })
  report ns w := w.noteAll ns

/-- Opens a pool. -/
def create (policy : Pool.Policy) (request : ClientRequest) (w : World) :
    Except Fault ConnectionPool × World :=
  let (opened, w) := Pool.openPool (surroundings request) policy w
  (opened.map fun core => { policy, request, core }, w)

/-- Runs a call of the pool. -/
def perform (p : ConnectionPool)
    (call : Pool.Surroundings World → Pool.Policy → Pool.Core → World →
      Pool.Result × Pool.Core × World)
    (w : World) : Pool.Result × ConnectionPool × World :=
  let (result, core, w) := call (surroundings p.request) p.policy p.core w
  (result, { p with core }, w)

def stats (p : ConnectionPool) : Pool.Stats := p.core.stats p.policy.name p.policy.limits

end ConnectionPool

/-- What a caller issues commands through. -/
structure Handle where
  topology : Topology
  client : ClientId
  /-- The client was borrowed from a pool and has to be given back. -/
  pooled : Bool := false
  deriving DecidableEq, Repr

/-- Where the handles of a facade come from. -/
inductive Backend where
  | direct (client : ClientId)
  | pooled (pool : ConnectionPool)
  deriving Repr

/-- Hands out the handles of one topology. -/
structure Facade where
  topology : Topology
  backend : Backend
  deriving Repr

namespace Facade

/-- A facade around a client or a pool; it takes exactly one of them. -/
def make (topology : Topology) (client : Option ClientId) (pool : Option ConnectionPool) :
    Except Fault Facade :=
  match client, pool with
  | some c, none => .ok ⟨topology, .direct c⟩
  | none, some p => .ok ⟨topology, .pooled p⟩
  | _, _ => .error .clientOrPool

/-- The pool of a facade that has one. -/
def pool? (f : Facade) : Option ConnectionPool :=
  match f.backend with
  | .direct _ => none
  | .pooled p => some p

/-- The handle of a facade that has a single one. -/
def directHandle? (f : Facade) : Option Handle :=
  match f.backend with
  | .direct client => some { topology := f.topology, client }
  | .pooled _ => none

/-- A handle for one use. -/
def handle (f : Facade) (w : World) : Except Fault Handle × Facade × World :=
  match f.backend with
  | .direct client => (.ok { topology := f.topology, client }, f, w)
  | .pooled p =>
    let (result, p, w) := p.perform (fun s policy => Pool.borrow s policy none) w
    let handle := match result with
      | .ok (some client) => .ok { topology := f.topology, client, pooled := true }
      | .ok none => .error .waitsForever
      | .error e => .error e
    (handle, { f with backend := .pooled p }, w)

/-- Gives a handle back; a client that is open for good stays open. -/
def release (f : Facade) (h : Handle) (w : World) : Except Fault Unit × Facade × World :=
  match f.backend with
  | .direct _ => (.ok (), f, w)
  | .pooled p =>
    let (result, p, w) := p.perform (fun s policy => Pool.giveBack s policy h.client) w
    (result.map fun _ => (), { f with backend := .pooled p }, w)

end Facade
end RedisGateway
