import RedisGateway.Text.Quoted

/-!
Transport options as a typed record, and the texts that show one.
-/

namespace RedisGateway

/-- Transport options with their types. For the numbers, -1 means that the option is not set, and so
does a blank client name. -/
structure ConnectionOptions where
  clientName : String := ""
  connectionTimeoutMs : Int := -1
  database : Int := -1
  tls : Bool := false
  startTls : Bool := false
  verifyPeer : Bool := false
  deriving DecidableEq, Repr, Inhabited

namespace ConnectionOptions

/-- The fields with the texts that show their values. -/
def parts (o : ConnectionOptions) : List String :=
  let flag (b : Bool) : String := if b then "True" else "False"
  ["client_name=" ++ Text.quoted o.clientName,
   "connection_timeout_ms=" ++ toString o.connectionTimeoutMs,
   "database=" ++ toString o.database, "ssl_enabled=" ++ flag o.tls,
   "start_tls_enabled=" ++ flag o.startTls, "verify_peer_enabled=" ++ flag o.verifyPeer]

/-- The fields, as a record shows them inside another value. -/
def describe (o : ConnectionOptions) : String :=
  "ConnectionOptions(" ++ ", ".intercalate o.parts ++ ")"

/-- The fields, as a record shows them on its own. -/
def display (o : ConnectionOptions) : String := " ".intercalate o.parts

end ConnectionOptions
end RedisGateway
