import RedisGateway.Text.Quoted

/-!
Failures that a client reports, and the ancestry of their kinds. What a failure means for a command
depends only on whether its kind descends from a lost connection, a timeout or a client error.

Besides the kinds that are named here there is every kind that others derive from them, from one or
from several at once, so a failure can be of any hierarchy.
-/

namespace RedisGateway

/-- The kind of a failure. Every kind descends from `other`: interrupts and exits are none. -/
inductive FailureKind where
  /-- Any error of the client. -/
  | client
  | connection
  | authentication
  | authorization
  | busyLoading
  | maxConnections
  | timeout
  | invalidResponse
  | data
  | pubSub
  | watch
  | lock
  | response
  | noScript
  | outOfMemory
  | readOnly
  | execAbort
  | noPermission
  | serverModule
  | authArguments
  | cluster
  | clusterDown
  /-- An error of the cluster client itself, which is no client error. -/
  | clusterClient
  | childDeadlocked
  /-- Any error of the operating system. -/
  | system
  | socket
  | refused
  | socketTimeout
  | lookup
  | missingKey
  | badValue
  | runtime
  | badType
  | attribute
  | other
  /-- A kind that is derived from another one. -/
  | special (name : String) (base : FailureKind)
  /-- A kind that is derived from two others at once. -/
  | joint (name : String) (first second : FailureKind)
  deriving DecidableEq, Repr, Inhabited

namespace FailureKind

/-- The kinds with a name of their own. -/
def all : List FailureKind :=
  [.client, .connection, .authentication, .authorization, .busyLoading, .maxConnections, .timeout,
   .invalidResponse, .data, .pubSub, .watch, .lock, .response, .noScript, .outOfMemory, .readOnly,
   .execAbort, .noPermission, .serverModule, .authArguments, .cluster, .clusterDown, .clusterClient,
   .childDeadlocked, .system, .socket, .refused, .socketTimeout, .lookup, .missingKey, .badValue,
   .runtime, .badType, .attribute, .other]

/-- The kinds that a kind is a special case of. -/
def parents : FailureKind → List FailureKind
  | .connection | .timeout | .invalidResponse | .data | .pubSub | .watch | .response
  | .cluster => [.client]
  | .lock => [.client, .badValue]
  | .authentication | .authorization | .busyLoading | .maxConnections => [.connection]
  | .noScript | .outOfMemory | .readOnly | .execAbort | .noPermission | .serverModule
  | .authArguments => [.response]
  | .clusterDown => [.cluster, .response]
  | .socket | .socketTimeout => [.system]
  | .refused => [.socket]
  | .missingKey => [.lookup]
  | .client | .clusterClient | .childDeadlocked | .system | .lookup | .badValue | .runtime
  | .badType | .attribute => [.other]
  | .other => []
  | .special _ base => [base]
  | .joint _ first second => [first, second]

/-- The kind itself and what it descends from, up to `n` generations back. -/
def generations : Nat → FailureKind → List FailureKind
  | 0, k => [k]
  | n + 1, k => k :: k.parents.flatMap (generations n)

/-- The kind itself and what it descends from, nearest first. No line of descent of a kind with a
name of its own is longer than four. -/
def lineage : FailureKind → List FailureKind
  | .special name base => .special name base :: base.lineage
  | .joint name first second => .joint name first second :: (first.lineage ++ second.lineage)
  | k => generations 4 k

/-- The kind is `ancestor` or descends from it. -/
def isA (k ancestor : FailureKind) : Bool := k.lineage.contains ancestor

/-- The connection is lost, refused or too slow. -/
def isConnectivity (k : FailureKind) : Bool := k.isA .connection || k.isA .timeout

/-- The client or the cluster client reports it. -/
def isClientError (k : FailureKind) : Bool := k.isA .client || k.isA .clusterClient

end FailureKind

/-- A failure with the message it carries. A derived kind carries the message that it shows. -/
structure Failure where
  kind : FailureKind
  message : String
  deriving DecidableEq, Repr, Inhabited

/-- The text of a failure; a missing key is shown quoted. -/
def Failure.text (f : Failure) : String :=
  if f.kind = .missingKey then Text.quoted f.message else f.message

end RedisGateway
