import RedisGateway.Fault
import RedisGateway.Topology

/-!
Notices: what the library reports about its own work, each with a level and a wording.
-/

namespace RedisGateway

/-- How much a notice matters. -/
inductive Level where
  | debug
  | info
  | warning
  | error
  deriving DecidableEq, Repr

namespace Level

def name : Level → String
  | .debug => "DEBUG"
  | .info => "INFO"
  | .warning => "WARNING"
  | .error => "ERROR"

def rank : Level → Nat
  | .debug => 0
  | .info => 1
  | .warning => 2
  | .error => 3

/-- Every level, the least important one first. -/
def all : List Level := [.debug, .info, .warning, .error]

end Level

/-- Something that the library reports. -/
inductive Notice where
  | addressesResolved (count : Nat) (spec : String)
  | startTlsIgnored
  /-- The transport configuration, in one line. -/
  | transportBuilt (description : String)
  | standaloneOpened (address : String)
  | databaseIgnored (database : Int)
  | clusterUnreachable (seeds : String) (cause : Failure)
  | clusterOpened (nodes : Nat)
  | poolOpened (pool : String) (maxTotal maxIdle minIdle : Int)
  | poolNotOpened (pool : String) (cause : Failure)
  | connectionOpened (pool : String)
  | closingFailed (cause : Failure)
  | staleDiscarded (pool : String)
  | idleBorrowed (pool : String) (active idle : Nat)
  | newBorrowed (pool : String) (active idle : Nat)
  | returnIgnored (pool : String)
  | unhealthyDiscarded (pool : String)
  | closedAtReturn (pool : String)
  | returned (pool : String) (active idle : Nat)
  | stillInUse (count : Nat) (pool : String)
  | poolClosed (pool : String)
  | managerCreated (topology : Topology) (pooling : Bool) (codec : String)
  | managerInitialized (hosts : Nat) (topology : Topology) (pooling : Bool)
  | noPoolToClose
  | managerClosed
  | unusedManagerClosed
  | clientClosingFailed (cause : Failure)
  | connectionLost (command : String) (cause : Failure)
  deriving DecidableEq, Repr

namespace Notice

def level : Notice → Level
  | .addressesResolved .. | .transportBuilt _ | .connectionOpened _ | .idleBorrowed ..
  | .newBorrowed .. | .returned .. | .noPoolToClose => .debug
  | .standaloneOpened _ | .clusterOpened _ | .poolOpened .. | .closedAtReturn _ | .poolClosed _
  | .managerCreated .. | .managerInitialized .. | .managerClosed | .unusedManagerClosed => .info
  | .startTlsIgnored | .databaseIgnored _ | .closingFailed _ | .staleDiscarded _
  | .returnIgnored _ | .unhealthyDiscarded _ | .stillInUse .. | .clientClosingFailed _ => .warning
  | .clusterUnreachable .. | .poolNotOpened .. | .connectionLost .. => .error

/-- The counts that follow a borrow or a return. -/
def counts (active idle : Nat) : String :=
  ". Active: " ++ toString active ++ ", Idle: " ++ toString idle

def text : Notice → String
  | .addressesResolved n spec =>
    "Resolved " ++ toString n ++ " server address(es) from '" ++ spec ++ "'"
  | .startTlsIgnored =>
    "STARTTLS was requested but redis-py negotiates TLS when the socket is opened; " ++
      "enable sslEnabled to encrypt the connection"
  | .transportBuilt d => "Standalone transport configuration: " ++ d
  | .standaloneOpened a => "Created standalone Redis client for " ++ a
  | .databaseIgnored n =>
    "Database index " ++ toString n ++ " is ignored for cluster connections; " ++
      "Redis Cluster only serves database 0"
  | .clusterUnreachable seeds f => (Fault.clusterUnreachable seeds f).message
  | .clusterOpened n => "Created Redis Cluster client with " ++ toString n ++ " startup node(s)"
  | .poolOpened p total idle least =>
    "Redis connection pool '" ++ p ++ "' initialized (max_total=" ++ toString total ++
      ", max_idle=" ++ toString idle ++ ", min_idle=" ++ toString least ++ ")"
  | .poolNotOpened p f =>
    "Failed to initialize connection pool '" ++ p ++ "': " ++ (Fault.notOpened f).message
  | .connectionOpened p => "Created new Redis connection for pool '" ++ p ++ "'"
  | .closingFailed f => "Error closing pooled connection: " ++ f.text
  | .staleDiscarded p => "Stale connection detected in pool '" ++ p ++ "', discarding it"
  | .idleBorrowed p a i => "Connection acquired from pool '" ++ p ++ "'" ++ counts a i
  | .newBorrowed p a i => "New connection acquired from pool '" ++ p ++ "'" ++ counts a i
  | .returnIgnored p =>
    "Ignoring return of a connection that is not borrowed from pool '" ++ p ++
      "' (already returned or foreign object)"
  | .unhealthyDiscarded p =>
    "Connection returned to pool '" ++ p ++ "' is unhealthy, discarding it"
  | .closedAtReturn p => "Connection closed (pool '" ++ p ++ "' is shutting down)"
  | .returned p a i => "Connection returned to pool '" ++ p ++ "'" ++ counts a i
  | .stillInUse n p =>
    toString n ++ " connection(s) still in use during shutdown of pool '" ++ p ++ "'"
  | .poolClosed p => "Redis connection pool '" ++ p ++ "' closed"
  | .managerCreated t pooling codec =>
    "ConnectionManager created (topology=" ++ t.name ++ ", pooling=" ++
      (if pooling then "enabled" else "disabled") ++ ", codec=" ++ codec ++ ")"
  | .managerInitialized n t pooling =>
    "ConnectionManager initialized with " ++ toString n ++ " host(s) (topology=" ++ t.name ++
      ", pooling=" ++ (Value.flag pooling).describe ++ ")"
  | .noPoolToClose =>
    "close_connection_pool() called without an active pool; nothing to close"
  | .managerClosed => "ConnectionManager closed"
  | .unusedManagerClosed => "ConnectionManager closed (was never initialized)"
  | .clientClosingFailed f => "Error closing Redis client: " ++ f.text
  | .connectionLost c f =>
    "Connection failure while executing '" ++ c ++ "': " ++ f.text

end Notice
end RedisGateway
