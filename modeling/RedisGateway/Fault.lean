import RedisGateway.Failure
import RedisGateway.Value

/-!
Everything that can go wrong, by cause. `Fault.message` words each fault; `Fault.family?` places the
faults of this library in their taxonomy.
-/

namespace RedisGateway

/-- The families of faults that callers may catch, from the most general down. -/
inductive Family where
  | operation
  | configuration
  | commandExecution
  | connection
  | invalidAddress
  | unsupportedTopology
  | initialization
  | acquisition
  | exhausted
  | closed
  deriving DecidableEq, Repr, Inhabited

namespace Family

/-- The family itself and those it is part of, up to the most general one. -/
def lineage : Family → List Family
  | .operation => [.operation]
  | .configuration => [.configuration, .operation]
  | .commandExecution => [.commandExecution, .operation]
  | .connection => [.connection, .operation]
  | .invalidAddress => [.invalidAddress, .connection, .operation]
  | .unsupportedTopology => [.unsupportedTopology, .connection, .operation]
  | .initialization => [.initialization, .connection, .operation]
  | .acquisition => [.acquisition, .connection, .operation]
  | .exhausted => [.exhausted, .acquisition, .connection, .operation]
  | .closed => [.closed, .connection, .operation]

/-- The detail that faults of a family carry besides their message. -/
def detail? : Family → Option String
  | .invalidAddress => some "address"
  | .unsupportedTopology => some "hosts"
  | .exhausted => some "max_total"
  | .commandExecution => some "command"
  | _ => none

/-- The details of a fault made with the given ones: each must be one that the family carries, and
one that is not given is absent. -/
def details? (k : Family) (given : List (String × Value)) : Option (List (String × Value)) :=
  match k.detail? with
  | none => if given.isEmpty then some [] else none
  | some d => match given with
    | [] => some [(d, .none)]
    | [(d', v)] => if d' = d then some [(d, v)] else none
    | _ => none

end Family

/-- What is wrong with a value that was given for a setting. -/
inductive Problem where
  | integerText
  | integerSize
  | notFinite
  | fractional
  | notInteger
  | belowZero
  | flagText
  | notFlag
  | notText
  | notUnicode
  | notCodec
  | unknownField
  /-- The value is no group of settings of the named kind. -/
  | notGroup (kind : String)
  | frozen
  /-- The values of a group contradict one another. -/
  | contradiction (reason : String)
  deriving DecidableEq, Repr

namespace Problem

/-- The short name of a problem. -/
def code : Problem → String
  | .integerText => "int_parsing"
  | .integerSize => "int_parsing_size"
  | .notFinite => "finite_number"
  | .fractional => "int_from_float"
  | .notInteger => "int_type"
  | .belowZero => "greater_than_equal"
  | .flagText => "bool_parsing"
  | .notFlag => "bool_type"
  | .notText => "string_type"
  | .notUnicode => "string_unicode"
  | .notCodec => "enum"
  | .unknownField => "extra_forbidden"
  | .notGroup _ => "model_type"
  | .frozen => "frozen_instance"
  | .contradiction _ => "value_error"

def message : Problem → String
  | .integerText => "Input should be a valid integer, unable to parse string as an integer"
  | .integerSize => "Unable to parse input string as an integer, exceeded maximum size"
  | .notFinite => "Input should be a finite number"
  | .fractional => "Input should be a valid integer, got a number with a fractional part"
  | .notInteger => "Input should be a valid integer"
  | .belowZero => "Input should be greater than or equal to 0"
  | .flagText => "Input should be a valid boolean, unable to interpret input"
  | .notFlag => "Input should be a valid boolean"
  | .notText => "Input should be a valid string"
  | .notUnicode => "Input should be a valid string, unable to parse raw data as a unicode string"
  | .notCodec => "Input should be 'string' or 'bytes'"
  | .unknownField => "Extra inputs are not permitted"
  | .notGroup kind => "Input should be a valid dictionary or instance of " ++ kind
  | .frozen => "Instance is frozen"
  | .contradiction reason => "Value error, " ++ reason

end Problem

/-- A problem and the path to the setting that has it. -/
structure Issue where
  path : List String
  problem : Problem
  deriving DecidableEq, Repr

/-- How a settings document can be malformed. -/
inductive DocumentFault where
  | unreadableCharacter
  | token
  | grammar
  | composition
  | construction
  deriving DecidableEq, Repr

/-- Everything that can go wrong. -/
inductive Fault where
  | malformedAddress (token : String)
  | portNotNumeric (token : String)
  | portOutOfRange (token : String)
  | multipleHosts (hosts : String)
  | managerClosed
  | alreadyInitialized
  | notInitialized
  | clientOrPool
  | poolClosed (pool : String)
  | poolExhausted (pool : String) (maxTotal : Int)
  | waitElapsed (pool limit : String) (maxTotal : Int)
  | notOpened (cause : Failure)
  | clusterUnreachable (seeds : String) (cause : Failure)
  | connectionLost (command : String) (cause : Failure)
  | commandFailed (command : String) (cause : Failure)
  | unknownCodec (given : Value)
  | unknownCategory (given : Value)
  /-- A failure of a client that is passed on as it is. -/
  | passedOn (failure : Failure)
  /-- A numeral of more digits than are ever converted. -/
  | numeralTooLong (digits : Nat)
  /-- An integer of more digits than are ever shown. -/
  | integerTooLong
  | numeralMalformed (given : Value) (base : Nat)
  | decimalMalformed (given : Value)
  /-- A binary64 value that is no number was to be an integer. -/
  | countNotANumber
  /-- An infinite binary64 value was to be an integer. -/
  | countInfinite
  | noWorkers
  | timeoutOutOfRange
  | waitOutOfRange
  /-- No call that could end the wait is in progress. -/
  | waitsForever
  | forgottenConnection (connection : Nat)
  | noAddress
  | argumentMismatch
  | noSuchCommand
  | unknownAttribute (model name : String)
  /-- An attribute that is only read was to be set. -/
  | readOnlyAttribute (name : String)
  /-- A value of the wrong kind for an attribute. -/
  | unfitAttribute (name : String)
  | invalid (issues : List Issue)
  | unreadableVariable (field : String)
  | malformedDocument (fault : DocumentFault)
  | notFields
  | emptyNumeral
  | unknownKey (key : Value)
  | badMoment (reason : String)
  | notAMoment
  /-- A value is given by itself. -/
  | endlessValue
  /-- A member of a set could change. -/
  | changeableMember
  /-- A span of time that is longer than spans can be. -/
  | durationOutOfRange
  /-- An integer beyond the binary64 values was to be one. -/
  | numberOutOfRange
  /-- A number that is no code point. -/
  | noCharacter (code : Nat)
  | noSuchFile
  | isDirectory
  deriving Repr

namespace Fault

/-- The longest numeral that is converted to an integer, and the longest one that shows one. -/
def maxDigits : Nat := 4300

/-- The most that is shown of a text that is no numeral. -/
def maxShown : Nat := 200

/-- What is said of an integer with too many digits. -/
def digitLimit : String :=
  "Exceeds the limit (" ++ toString maxDigits ++ " digits) for integer string conversion"

/-- How the limit on digits can be raised. -/
def digitAdvice : String := "; use sys.set_int_max_str_digits() to increase the limit"

/-- The least number with too many digits to be shown, which no proof is to compute. -/
@[irreducible]
def showableBound : Nat := Nat.pow 10 maxDigits

theorem le_showableBound : 1000000 ≤ showableBound := by
  unfold showableBound
  have h : 0 < 10 := by decide
  have hd : 6 ≤ maxDigits := by decide
  exact Nat.pow_le_pow_right h hd

/-- An integer whose numeral is short enough to be shown. -/
def isShowable (n : Int) : Bool := n.natAbs < showableBound

theorem isShowable_of_lt {n : Int} (h : n.natAbs < 1000000) : isShowable n = true :=
  decide_eq_true (Nat.lt_of_lt_of_le h le_showableBound)

/-- The numeral of an integer, if it can be shown. -/
def showInteger (n : Int) : Except Fault String :=
  if isShowable n then .ok (toString n) else .error .integerTooLong

/-- The greatest port. -/
def maxPort : Nat := 65535

def family? : Fault → Option Family
  | .malformedAddress _ | .portNotNumeric _ | .portOutOfRange _ => some .invalidAddress
  | .multipleHosts _ => some .unsupportedTopology
  | .managerClosed | .alreadyInitialized | .notInitialized | .clientOrPool => some .initialization
  | .poolClosed _ => some .closed
  | .poolExhausted .. | .waitElapsed .. => some .exhausted
  | .notOpened _ | .clusterUnreachable .. | .connectionLost .. => some .acquisition
  | .commandFailed .. => some .commandExecution
  | .unknownCodec _ => some .configuration
  | _ => none

/-- A fault of this library's own taxonomy. -/
def isOperational (f : Fault) : Bool := f.family?.isSome

/-- The failure of a client that a fault was made from. -/
def cause? : Fault → Option Failure
  | .notOpened f | .clusterUnreachable _ f | .connectionLost _ f | .commandFailed _ f => some f
  | _ => none

/-- The detail that a fault carries besides its message. -/
def detail? : Fault → Option (String × Value)
  | .malformedAddress t | .portNotNumeric t | .portOutOfRange t => some ("address", .text t)
  | .multipleHosts h => some ("hosts", .text h)
  | .poolExhausted _ n | .waitElapsed _ _ n => some ("max_total", .whole n)
  | .commandFailed c _ => some ("command", .text c)
  | _ => none

/-- The wording of a fault. -/
def message : Fault → String
  | .malformedAddress t => "host string must have the form host[:port]: " ++ t
  | .portNotNumeric t => "port of the host string must be an integer: " ++ t
  | .portOutOfRange t =>
    "port of the host string must be between 0 and " ++ toString maxPort ++ ": " ++ t
  | .multipleHosts h => "Multiple hosts are not supported for standalone connections: " ++ h
  | .managerClosed => "ConnectionManager has been closed"
  | .alreadyInitialized => "ConnectionManager is already initialized; init may only succeed once"
  | .notInitialized => "ConnectionManager is not initialized; call init() first"
  | .clientOrPool => "CommandFacade requires exactly one of a direct client or a connection pool"
  | .poolClosed p => "Connection pool '" ++ p ++ "' is closed"
  | .poolExhausted p n =>
    "Connection pool '" ++ p ++ "' exhausted (max_total=" ++ toString n ++ ")"
  | .waitElapsed p limit n =>
    "No connections available in pool '" ++ p ++ "' within " ++ limit ++ " seconds (max_total=" ++
      toString n ++ ")"
  | .notOpened f => "Error occurred while obtaining connection from the pool: " ++ f.text
  | .clusterUnreachable seeds f =>
    "Failed to connect to Redis Cluster via " ++ seeds ++ ": " ++ f.text
  | .connectionLost c f =>
    "Failed to execute '" ++ c ++ "' due to a connection failure: " ++ f.text
  | .commandFailed c f => "Error occurred while executing '" ++ c ++ "': " ++ f.text
  | .unknownCodec v => "Unknown codec type: " ++ v.describe
  | .unknownCategory v => v.describe ++ " is not a valid CommandCategory"
  | .passedOn f => f.text
  | .numeralTooLong n =>
    digitLimit ++ ": value has " ++ toString n ++ " digits" ++ digitAdvice
  | .integerTooLong => digitLimit ++ digitAdvice
  | .numeralMalformed v base =>
    "invalid literal for int() with base " ++ toString base ++ ": " ++
      String.ofList (v.describe.toList.take maxShown)
  | .decimalMalformed v => "could not convert string to float: " ++ v.describe
  | .countNotANumber => "cannot convert float NaN to integer"
  | .countInfinite => "cannot convert float infinity to integer"
  | .noWorkers => "max_workers must be greater than 0"
  | .timeoutOutOfRange => "timeout out of range"
  | .waitOutOfRange => "wait out of range"
  | .waitsForever => "nothing ends the wait"
  | .forgottenConnection n => toString n
  | .noAddress => "no address"
  | .argumentMismatch => "arguments do not match"
  | .noSuchCommand => "no such command"
  | .unknownAttribute model name => "\"" ++ model ++ "\" object has no field \"" ++ name ++ "\""
  | .readOnlyAttribute name => "attribute is only read: " ++ name
  | .unfitAttribute name => "value does not fit the attribute: " ++ name
  | .invalid issues => ", ".intercalate (issues.map fun i => i.problem.message)
  | .unreadableVariable f =>
    "error parsing value for field \"" ++ f ++ "\" from source \"EnvSettingsSource\""
  | .malformedDocument _ => "malformed document"
  | .notFields => "not a mapping of fields"
  | .emptyNumeral => "empty numeral"
  | .unknownKey k => k.describe
  | .badMoment reason => reason
  | .notAMoment => "not a moment"
  | .endlessValue => "maximum recursion depth exceeded"
  | .changeableMember => "a member of a set could change"
  | .durationOutOfRange => "span of time out of range"
  | .numberOutOfRange => "integer beyond the range of numbers"
  | .noCharacter _ => "chr() arg not in range(0x110000)"
  | .noSuchFile => "no such file"
  | .isDirectory => "is a directory"

end Fault
end RedisGateway
