import RedisGateway.Pool.Limits
import RedisGateway.Settings.Field

/-!
The groups of settings: how to reach the servers, how large the pool is, and which codec is used.
-/

namespace RedisGateway

/-- How to reach the servers. -/
structure ConnectionSettings where
  hosts : String := "localhost:6379"
  password : String := ""
  clientName : String := ""
  connectionTimeoutMs : Int := -1
  database : Int := -1
  tls : Bool := false
  startTls : Bool := false
  verifyPeer : Bool := false
  cluster : Bool := false
  pooling : Bool := false
  deriving DecidableEq, Repr, Inhabited

/-- All settings. -/
structure Settings where
  connection : ConnectionSettings := {}
  pool : Pool.Limits := {}
  codec : CodecType := .string
  deriving DecidableEq, Repr, Inhabited

namespace ConnectionSettings

open Settings (FieldRule)

def hostsField : FieldRule String := ⟨"hosts", "localhost:6379", Settings.toText⟩
def passwordField : FieldRule String := ⟨"password", "", Settings.toText⟩
def clientNameField : FieldRule String := ⟨"client_name", "", Settings.toText⟩
def timeoutField : FieldRule Int := ⟨"connection_timeout_ms", -1, Settings.toInteger⟩
def databaseField : FieldRule Int := ⟨"database", -1, Settings.toInteger⟩
def tlsField : FieldRule Bool := ⟨"ssl_enabled", false, Settings.toFlag⟩
def startTlsField : FieldRule Bool := ⟨"start_tls_enabled", false, Settings.toFlag⟩
def verifyPeerField : FieldRule Bool := ⟨"verify_peer_enabled", false, Settings.toFlag⟩
def clusterField : FieldRule Bool := ⟨"cluster", false, Settings.toFlag⟩
def poolingField : FieldRule Bool := ⟨"pooling", false, Settings.toFlag⟩

/-- The names of the fields, in order. -/
def names : List String :=
  [hostsField.name, passwordField.name, clientNameField.name, timeoutField.name,
   databaseField.name, tlsField.name, startTlsField.name, verifyPeerField.name, clusterField.name,
   poolingField.name]

/-- What the names of the variables begin with. -/
def variableStart : String := "REDIS_"

/-- The settings from what is given, then the environment, with their issues. -/
def check (given : Fields) (env : Environment) :
    Except Fault (Settings.Checked ConnectionSettings) := do
  let s ← Settings.sourcesOf variableStart names given env
  let field {α : Type} (f : FieldRule α) : Settings.Checked α := f.resolve s
  let read := ((field hostsField).map ConnectionSettings.mk).app (field passwordField)
    |>.app (field clientNameField) |>.app (field timeoutField) |>.app (field databaseField)
    |>.app (field tlsField) |>.app (field startTlsField) |>.app (field verifyPeerField)
    |>.app (field clusterField) |>.app (field poolingField)
  return read.andIssues (Settings.unknownNames names s)

/-- The settings from what is given, then the environment, unless there are issues. -/
def resolve (given : Fields) (env : Environment) : Except Fault ConnectionSettings :=
  (check given env).bind (·.toFault)

/-- The settings by field name. -/
def toFields (s : ConnectionSettings) : Fields :=
  [(hostsField.name, .text s.hosts), (passwordField.name, .text s.password),
   (clientNameField.name, .text s.clientName),
   (timeoutField.name, .whole s.connectionTimeoutMs), (databaseField.name, .whole s.database),
   (tlsField.name, .flag s.tls), (startTlsField.name, .flag s.startTls),
   (verifyPeerField.name, .flag s.verifyPeer), (clusterField.name, .flag s.cluster),
   (poolingField.name, .flag s.pooling)]

/-- The transport options among the settings. -/
def options (s : ConnectionSettings) : ConnectionOptions :=
  { clientName := s.clientName, connectionTimeoutMs := s.connectionTimeoutMs
    database := s.database, tls := s.tls, startTls := s.startTls, verifyPeer := s.verifyPeer }

end ConnectionSettings

namespace Pool.Limits

open Settings (FieldRule)

def maxTotalField : FieldRule Int := ⟨"max_total", 8, Settings.toInteger⟩
def maxIdleField : FieldRule Int := ⟨"max_idle", 8, Settings.toInteger⟩
def minIdleField : FieldRule Int := ⟨"min_idle", 0, Settings.toCount⟩
def maxWaitField : FieldRule Int := ⟨"max_wait_ms", -1, Settings.toInteger⟩
def blockField : FieldRule Bool := ⟨"block_when_exhausted", true, Settings.toFlag⟩
def testOnBorrowField : FieldRule Bool := ⟨"test_on_borrow", false, Settings.toFlag⟩
def testOnReturnField : FieldRule Bool := ⟨"test_on_return", false, Settings.toFlag⟩

/-- The names of the fields, in order. -/
def names : List String :=
  [maxTotalField.name, maxIdleField.name, minIdleField.name, maxWaitField.name, blockField.name,
   testOnBorrowField.name, testOnReturnField.name]

/-- What the names of the variables begin with. -/
def variableStart : String := "REDIS_POOL_"

/-- Limits that contradict one another are refused. -/
def consistent (l : Limits) : Settings.Checked Limits :=
  match l.contradiction? with
  | some reason => .error [⟨[], .contradiction reason⟩]
  | none => .ok l

/-- The limits from what is given, then the environment, with their issues. -/
def check (given : Fields) (env : Environment) : Except Fault (Settings.Checked Limits) := do
  let s ← Settings.sourcesOf variableStart names given env
  let field {α : Type} (f : FieldRule α) : Settings.Checked α := f.resolve s
  let read := ((field maxTotalField).map Limits.mk).app (field maxIdleField)
    |>.app (field minIdleField) |>.app (field maxWaitField) |>.app (field blockField)
    |>.app (field testOnBorrowField) |>.app (field testOnReturnField)
  return (read.andIssues (Settings.unknownNames names s)).bind consistent

/-- The limits from what is given, then the environment, unless there are issues. -/
def resolve (given : Fields) (env : Environment) : Except Fault Limits :=
  (check given env).bind (·.toFault)

/-- The limits by field name. -/
def toFields (l : Limits) : Fields :=
  [(maxTotalField.name, .whole l.maxTotal), (maxIdleField.name, .whole l.maxIdle),
   (minIdleField.name, .whole l.minIdle), (maxWaitField.name, .whole l.maxWaitMs),
   (blockField.name, .flag l.blockWhenExhausted), (testOnBorrowField.name, .flag l.testOnBorrow),
   (testOnReturnField.name, .flag l.testOnReturn)]

end Pool.Limits

namespace ConnectionOptions

open Settings (FieldRule)

/-- A field of the options: it is read under its second name, or else under its first, and reported
under the one it was read. -/
def readField {α : Type} (f : FieldRule α) (second : String) (given : Fields) :
    Settings.Checked α :=
  match given.get? second with
  | some v => f.readAs second (some v)
  | none => f.readAs f.name (given.get? f.name)

/-- The options from what is given; names that no field has are ignored. -/
def ofFields (given : Fields) : Settings.Checked ConnectionOptions :=
  ((readField ConnectionSettings.clientNameField "clientName" given).map ConnectionOptions.mk)
    |>.app (readField ConnectionSettings.timeoutField "connectionTimeoutMs" given)
    |>.app (readField ConnectionSettings.databaseField "database" given)
    |>.app (readField ConnectionSettings.tlsField "sslEnabled" given)
    |>.app (readField ConnectionSettings.startTlsField "startTlsEnabled" given)
    |>.app (readField ConnectionSettings.verifyPeerField "verifyPeerEnabled" given)

/-- The options by field name. -/
def namedFields (o : ConnectionOptions) : Fields :=
  [(ConnectionSettings.clientNameField.name, .text o.clientName),
   (ConnectionSettings.timeoutField.name, .whole o.connectionTimeoutMs),
   (ConnectionSettings.databaseField.name, .whole o.database),
   (ConnectionSettings.tlsField.name, .flag o.tls),
   (ConnectionSettings.startTlsField.name, .flag o.startTls),
   (ConnectionSettings.verifyPeerField.name, .flag o.verifyPeer)]

end ConnectionOptions
end RedisGateway
