import RedisGateway.Settings.Resolve
import RedisGateway.Yaml.Document
import RedisGateway.Yaml.Writer

/-!
Settings documents. A document is read as what is given, over the environment; settings are written
with their keys in order and without the password.
-/

namespace RedisGateway

namespace Settings

/-! ## Reading -/

/-- What a path leads to. -/
inductive Place where
  | nothing
  | directory
  | document (text : String)
  deriving DecidableEq, Repr

/-- A text whose lines all end in a line feed: a carriage return, with or without a line feed behind
it, ends a line too. -/
def unifyLines : List Char → List Char
  | [] => []
  | '\r' :: '\n' :: cs => '\n' :: unifyLines cs
  | '\r' :: cs => '\n' :: unifyLines cs
  | c :: cs => c :: unifyLines cs

/-- The entries that a document gives. One that holds nothing gives none. -/
def givenBy (document : String) : Except Fault Entries := do
  let v ← Yaml.read (String.ofList (unifyLines document.toList))
  if !v.holds then return []
  match v with
  | .record es => return es
  | _ => throw .notFields

/-- The settings from a document and the environment. -/
def ofDocument (document : String) (env : Environment) : Except Fault Settings := do
  let found ← checkRecord (fun given => check given env) (← givenBy document)
  found.toFault

/-- The settings from the document at a place, which has to be there. -/
def ofPlace (place : Place) (env : Environment) : Except Fault Settings :=
  match place with
  | .nothing => .error .noSuchFile
  | .directory => .error .isDirectory
  | .document text => ofDocument text env

/-- The settings from what is at a place, or from the environment alone where there is nothing. -/
def load (place : Place) (env : Environment) : Except Fault Settings :=
  match place with
  | .nothing => resolve [] env
  | place => ofPlace place env

/-! ## Writing -/

/-- What is written in place of a password. -/
def mask : String := "***"

end Settings

/-- The settings with a mask in place of a password that is not empty. -/
def ConnectionSettings.masked (s : ConnectionSettings) : ConnectionSettings :=
  if s.password.isEmpty then s else { s with password := Settings.mask }

/-- The entries that are written, in the order of their keys. -/
def ConnectionSettings.leaves (s : ConnectionSettings) : List (String × Yaml.Leaf) :=
  [(clientNameField.name, .text s.clientName), (clusterField.name, .flag s.cluster),
   (timeoutField.name, .whole s.connectionTimeoutMs), (databaseField.name, .whole s.database),
   (hostsField.name, .text s.hosts), (passwordField.name, .text s.password),
   (poolingField.name, .flag s.pooling), (tlsField.name, .flag s.tls),
   (startTlsField.name, .flag s.startTls), (verifyPeerField.name, .flag s.verifyPeer)]

/-- The entries that are written, in the order of their keys. -/
def Pool.Limits.leaves (l : Limits) : List (String × Yaml.Leaf) :=
  [(blockField.name, .flag l.blockWhenExhausted), (maxIdleField.name, .whole l.maxIdle),
   (maxTotalField.name, .whole l.maxTotal), (maxWaitField.name, .whole l.maxWaitMs),
   (minIdleField.name, .whole l.minIdle), (testOnBorrowField.name, .flag l.testOnBorrow),
   (testOnReturnField.name, .flag l.testOnReturn)]

namespace Settings

/-- The integers of the settings, in the order in which they are converted. -/
def integers (s : Settings) : List Int :=
  [s.connection.connectionTimeoutMs, s.connection.database, s.pool.maxTotal, s.pool.maxIdle,
   s.pool.minIdle, s.pool.maxWaitMs]

/-- An integer passes through a numeral on its way to a document, which is limited in length. -/
def convert (n : Int) : Except Fault Unit :=
  let digits := (toString n.natAbs).length
  if Fault.maxDigits < digits then .error (.numeralTooLong digits) else .ok ()

/-- What is written of the settings, in the order of the keys. -/
def entries (s : Settings) : List (String × Yaml.Entry) :=
  [(codecField.name, .leaf (.text s.codec.name)),
   ("connection", .group s.connection.masked.leaves), ("pool", .group s.pool.leaves)]

/-- The document of the settings. -/
def toDocument (s : Settings) : Except Fault String := do
  s.integers.forM convert
  return Yaml.Writer.write s.entries

end Settings
end RedisGateway
