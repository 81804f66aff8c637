import RedisGateway.Value

/-!
Transport options. They come as a plain mapping, in which an option has several spellings, or as a
typed record, which fixes one.
-/

namespace RedisGateway

/-- Named values in the order in which they were given. -/
abbrev Fields := List (String × Value)

namespace Fields

/-- The value given under a name. -/
def get? (fs : Fields) (name : String) : Option Value := fs.lookup name

/-- A value replaces the one under its name or is added at the end. -/
def put (fs : Fields) (name : String) (v : Value) : Fields :=
  if fs.any (·.1 = name) then fs.map fun f => if f.1 = name then (name, v) else f
  else fs ++ [(name, v)]

/-- The value under the first of several names that is given. -/
def first? (fs : Fields) (names : List String) : Option Value := names.findSome? fs.get?

end Fields

/-- A transport option. -/
inductive TransportOption where
  | clientName
  | connectionTimeout
  | database
  | tls
  | startTls
  | verifyPeer
  deriving DecidableEq, Repr

namespace TransportOption

/-- The spellings of an option; where several are given the first one counts. -/
def spellings : TransportOption → List String
  | .clientName => ["clientName", "client_name"]
  | .connectionTimeout => ["connectionTimeoutMs", "connectionTimeout", "connection_timeout_ms"]
  | .database => ["database"]
  | .tls => ["sslEnabled", "ssl_enabled"]
  | .startTls => ["startTlsEnabled", "start_tls_enabled"]
  | .verifyPeer => ["verifyPeerEnabled", "verify_peer_enabled"]

end TransportOption

/-- The options as a plain mapping in their first spellings. -/
def ConnectionOptions.toFields (o : ConnectionOptions) : Fields :=
  [("clientName", .text o.clientName), ("connectionTimeoutMs", .whole o.connectionTimeoutMs),
   ("database", .whole o.database), ("sslEnabled", .flag o.tls),
   ("startTlsEnabled", .flag o.startTls), ("verifyPeerEnabled", .flag o.verifyPeer)]

/-- The forms in which options are given. -/
inductive Options where
  | absent
  | mapping (fields : Fields)
  | record (options : ConnectionOptions)
  deriving Repr, Inhabited

/-- The options as a plain mapping. -/
def Options.toFields : Options → Fields
  | .absent => []
  | .mapping fs => fs
  | .record o => o.toFields

end RedisGateway
