import RedisGateway.Fault
import RedisGateway.Text.Split

/-!
Server addresses and the specification `host[:port](,host[:port])*` that lists them. Hosts are taken
as they are; a port is a decimal numeral up to 65535.
-/

namespace RedisGateway

/-- An endpoint of a server. -/
structure ServerAddress where
  host : String
  port : Int
  deriving DecidableEq, Repr, Inhabited

namespace ServerAddress

/-- The port of an address that names none. -/
def defaultPort : Int := 6379

/-- The address as it is written in a specification. -/
def render (a : ServerAddress) : String := a.host ++ ":" ++ toString a.port

/-- Reads one `host[:port]` token. -/
def parse (token : List Char) : Except Fault ServerAddress :=
  let written := String.ofList token
  match Text.split ':' token with
  | [host] => .ok ⟨String.ofList host, defaultPort⟩
  | [host, port] =>
    if !Text.isNumeral port then .error (.portNotNumeric written)
    else if Fault.maxDigits < port.length then .error (.numeralTooLong port.length)
    else if Fault.maxPort < Text.natOfDigits port then .error (.portOutOfRange written)
    else .ok ⟨String.ofList host, Text.natOfDigits port⟩
  | _ => .error (.malformedAddress written)

/-- Reads a comma separated specification, which lists at least one address. The first token that
is malformed is reported. -/
def resolve (spec : String) : Except Fault (List ServerAddress) :=
  (Text.split ',' spec.toList).mapM parse

/-- Addresses as they are written in a specification. -/
def renderAll (as : List ServerAddress) : String := ",".intercalate (as.map render)

/-- The same, unless a port is too long to be shown. -/
def showAll (as : List ServerAddress) : Except Fault String :=
  if as.all fun a => Fault.isShowable a.port then .ok (renderAll as) else .error .integerTooLong

end ServerAddress
end RedisGateway
