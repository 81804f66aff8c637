import RedisGateway.Remote

/-!
Commands and their parameters: which arguments a call may give, by position and by name, and what
the client is sent for them.
-/

namespace RedisGateway

/-- A parameter of a command. -/
structure Parameter where
  name : String
  /-- The value of an argument that is not given. -/
  fallback : Option Value := none
  /-- The argument is sent under the parameter's name, not by position. -/
  named : Bool := false
  deriving Repr

namespace Parameter

/-- A parameter that must be given. -/
def needed (name : String) : Parameter := { name }

/-- A parameter that has a value when it is not given. -/
def optional (name : String) (fallback : Value) : Parameter := { name, fallback := some fallback }

/-- A parameter that is sent under its name. -/
def keyword (name : String) (fallback : Value) : Parameter :=
  { name, fallback := some fallback, named := true }

/-- A switch, off unless it is given, that is sent under its name. -/
def switch (name : String) : Parameter := keyword name (.flag false)

end Parameter

/-- A command of an executor. -/
structure Command where
  name : String
  parameters : List Parameter := []
  /-- Further arguments may follow by position. -/
  variadic : Bool := false
  deriving Repr

namespace Command

/-- The values of parameters: the arguments by position come first, then those by name, then the
fallbacks. A parameter that is given twice or not at all has none. -/
def bindParameters : List Parameter → List Value → Fields → Option (List (Parameter × Value))
  | [], _, _ => some []
  | p :: ps, a :: args, named =>
    if (named.lookup p.name).isSome then none
    else (bindParameters ps args named).map ((p, a) :: ·)
  | p :: ps, [], named => do
    let v ← (named.lookup p.name).or p.fallback
    return (p, v) :: (← bindParameters ps [] named)

/-- What a client is sent for values of parameters and further arguments. -/
def callOf (c : Command) (bound : List (Parameter × Value)) (more : List Value) : Call :=
  { command := c.name
    arguments := (bound.filter fun b => !b.1.named).map (·.2) ++ more
    keywords := (bound.filter fun b => b.1.named).map fun b => (b.1.name, b.2) }

/-- What a client is sent for the arguments of a call: every parameter has one value, and no
argument is left over. -/
def bind (c : Command) (args : List Value) (named : Fields) : Except Fault Call :=
  let more := args.drop c.parameters.length
  let known := named.all fun p => c.parameters.any fun q => q.name = p.1
  if !known || (!c.variadic && !more.isEmpty) then .error .argumentMismatch
  else match bindParameters c.parameters args named with
    | some bound => .ok (c.callOf bound more)
    | none => .error .argumentMismatch

/-- The parameter that names the command where any command can be sent. -/
def nameParameter : String := "command"

/-- Names that no argument can have where any command can be sent. -/
def takenNames : List String := ["self"]

/-- A command that is given with its arguments, which are sent as they are. The command comes first
or under its name, but not both. -/
def given? (args : List Value) (named : Fields) : Option (Value × List Value × Fields) :=
  if named.any fun p => takenNames.contains p.1 then none
  else match args, named.lookup nameParameter with
    | c :: args, none => some (c, args, named)
    | [], some c => some (c, [], named.filter (·.1 ≠ nameParameter))
    | _, _ => none

end Command
end RedisGateway
