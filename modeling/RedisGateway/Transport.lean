import RedisGateway.Codec
import RedisGateway.Options

/-!
The transport configuration of one endpoint, built from an address, a password and options, and the
client keywords that it amounts to. Values that an option cannot take leave the option unset; only a
timeout beyond the range of time spans is refused.
-/

namespace RedisGateway

/-- How to reach one endpoint. -/
structure Transport where
  host : String
  port : Int
  tls : Bool := false
  startTls : Bool := false
  verifyPeer : Bool := false
  database : Option Int := none
  timeout : Option Duration := none
  clientName : Option LooseText := none
  password : Option LooseText := none
  deriving DecidableEq, Repr, Inhabited

namespace Transport

/-- The value of an option under its first spelling that is given. -/
def lookup (fs : Fields) (o : TransportOption) : Option Value := fs.first? o.spellings

/-- A flag is set by the value true only. -/
def flagOf : Option Value → Bool
  | some (.flag true) => true
  | _ => false

/-- An integer; a flag is none. -/
def integerOf : Option Value → Option Int
  | some (.whole n) => some n
  | _ => none

/-- A text that is not blank. -/
def textOf (v : Option Value) : Option LooseText :=
  (v.bind Value.looseText?).filter fun s => !s.allBlank

/-- The database index; -1 stands for the server's default. -/
def databaseOf (v : Option Value) : Option Int :=
  (integerOf v).filter (· ≠ -1)

/-- The timeout in milliseconds; a negative one stands for the client's default. -/
def timeoutOf (v : Option Value) : Except Fault (Option Duration) :=
  match integerOf v with
  | some n =>
    if n < 0 then .ok none
    else if (Duration.ofMilliseconds n).inRange then .ok (some (.ofMilliseconds n))
    else .error .timeoutOutOfRange
  | none => .ok none

/-- The configuration for an endpoint. -/
def build (host : String) (port : Int) (password : Value) (options : Options) :
    Except Fault Transport :=
  let fs := options.toFields
  (timeoutOf (lookup fs .connectionTimeout)).map fun timeout =>
    { host, port, timeout
      tls := flagOf (lookup fs .tls)
      startTls := flagOf (lookup fs .startTls)
      verifyPeer := flagOf (lookup fs .verifyPeer)
      database := databaseOf (lookup fs .database)
      clientName := textOf (lookup fs .clientName)
      password := textOf (some password) }

/-- The keyword for a value that may be unset. -/
def keyword? {α : Type} (name : String) (make : α → Setting) : Option α → Keywords
  | some a => [(name, make a)]
  | none => []

/-- Keywords that switch encryption on, and with it the check of the peer's certificate. -/
def tlsKeywords (t : Transport) : Keywords :=
  if t.tls then
    [("ssl", .flag true), ("ssl_cert_reqs", .text (if t.verifyPeer then "required" else "none")),
     ("ssl_check_hostname", .flag t.verifyPeer)]
  else []

/-- Keywords that clients of both topologies take. -/
def sharedKeywords (t : Transport) (c : Codec) : Keywords :=
  keyword? "password" .ofText t.password ++ t.tlsKeywords ++
    keyword? "socket_connect_timeout" .seconds t.timeout ++
    keyword? "socket_timeout" .seconds t.timeout ++
    keyword? "client_name" .ofText t.clientName ++ c.keywords

/-- Keywords of a client for this endpoint alone. -/
def endpointKeywords (t : Transport) (c : Codec) : Keywords :=
  [("host", .text t.host), ("port", .number t.port)] ++ keyword? "db" .number t.database ++
    t.sharedKeywords c

/-- Neither the port nor the database index is too long to be shown. -/
def isShowable (t : Transport) : Bool :=
  Fault.isShowable t.port && t.database.all fun n => Fault.isShowable n

/-- The configuration in one line, without the password, if it can be shown. -/
def describe (t : Transport) : Except Fault String :=
  let flag (b : Bool) : String := (Value.flag b).describe
  let unset : String := Value.none.describe
  if t.isShowable then
    .ok ("TransportConfig(host=" ++ Text.quoted t.host ++ ", port=" ++ toString t.port ++
      ", tls_enabled=" ++ flag t.tls ++ ", start_tls_enabled=" ++ flag t.startTls ++
      ", verify_peer_enabled=" ++ flag t.verifyPeer ++
      ", database=" ++ (t.database.map toString).getD unset ++
      ", connection_timeout=" ++ (t.timeout.map Duration.describe).getD unset ++
      ", client_name=" ++ (t.clientName.map LooseText.quoted).getD unset ++ ")")
  else .error .integerTooLong

theorem describe_of_isShowable {t : Transport} (h : t.isShowable = true) :
    ∃ text, t.describe = .ok text := by
  simp only [describe, h, if_true]
  exact ⟨_, rfl⟩

theorem describe_of_not_isShowable {t : Transport} (h : t.isShowable = false) :
    t.describe = .error .integerTooLong := by
  simp only [describe, h, Bool.false_eq_true, if_false]

end Transport
end RedisGateway
