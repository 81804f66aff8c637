import RedisGateway.Address
import RedisGateway.Remote

/-!
Connectors turn addresses, a password and options into what handles are made of: one client that is
open for good, or the request with which a pool opens as many clients as it needs.
-/

namespace RedisGateway

/-- Where handles get their clients from. -/
inductive ClientSource where
  | direct (client : ClientId)
  /-- Every client is opened with the same request. -/
  | supplier (request : ClientRequest)
  deriving DecidableEq, Repr

/-- Makes clients with one codec, each by itself or for a pool. -/
structure Connector where
  codec : Codec := .default
  pooling : Bool := false
  deriving DecidableEq, Repr, Inhabited

namespace Connector

/-- Reports something. -/
def note (n : Notice) : Act World Unit := modify (·.note n)

/-- Asks the remote side for a client. -/
def openClient (request : ClientRequest) : Act World (Except Failure ClientId) :=
  modifyGet fun w =>
    let (answer, remote) := w.remote.openClient request
    (answer, { w with remote })

/-- The addresses of a specification. -/
def resolve (hosts : String) : Act World (List ServerAddress) := do
  let addresses ← ServerAddress.resolve hosts
  note (.addressesResolved addresses.length hosts)
  return addresses

/-- The transport configuration of an address. -/
def transport (address : ServerAddress) (password : Value) (options : Options) :
    Act World Transport := do
  let t ← Transport.build address.host address.port password options
  if t.startTls then note .startTlsIgnored
  return t

/-- The keyword that keeps a pooled client to a single connection. -/
def singleConnection : Keywords := [("single_connection_client", .flag true)]

/-- A source of clients for a single node. -/
def standalone (k : Connector) (address : ServerAddress) (password : Value) (options : Options) :
    Act World ClientSource := do
  let t ← transport address password options
  let keywords := t.endpointKeywords k.codec
  note (.transportBuilt (← t.describe))
  if k.pooling then return .supplier (.standalone (singleConnection ++ keywords))
  match ← openClient (.standalone keywords) with
  | .ok client =>
    note (.standaloneOpened address.render)
    return .direct client
  | .error f => throw (.passedOn f)

/-- A source of cluster clients that are opened with a request. -/
def clusterSource (k : Connector) (addresses : List ServerAddress) (request : ClientRequest) :
    Act World ClientSource := do
  if k.pooling then return .supplier request
  match ← openClient request with
  | .ok client =>
    note (.clusterOpened addresses.length)
    return .direct client
  | .error f =>
    if f.kind.isClientError then
      let seeds ← ServerAddress.showAll addresses
      note (.clusterUnreachable seeds f)
      throw (.clusterUnreachable seeds f)
    else throw (.passedOn f)

/-- Reports a database index that has no meaning for a cluster. -/
def noteDatabase : Option Int → Act World Unit
  | some n => do
    if n ≠ 0 then
      if Fault.isShowable n then note (.databaseIgnored n) else throw .integerTooLong
  | none => pure ()

/-- A source of clients for a cluster that is found through any of the addresses. -/
def cluster (k : Connector) (addresses : List ServerAddress) (password : Value)
    (options : Options) : Act World ClientSource := do
  let transports ← addresses.mapM fun a => transport a password options
  match transports with
  | [] => throw .noAddress
  | t :: _ =>
    noteDatabase t.database
    k.clusterSource addresses
      (.cluster (t.sharedKeywords k.codec) (transports.map fun t => (t.host, t.port)))

/-- A source of clients for a topology; a single node is reached at the first address. -/
def connect (k : Connector) (topology : Topology) (addresses : List ServerAddress)
    (password : Value) (options : Options) : Act World ClientSource :=
  match topology, addresses with
  | .cluster, _ => k.cluster addresses password options
  | .standalone, a :: _ => k.standalone a password options
  | .standalone, [] => throw .noAddress

end Connector
end RedisGateway
