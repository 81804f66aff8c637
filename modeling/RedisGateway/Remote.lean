import RedisGateway.Notice
import RedisGateway.Transport

/-!
The remote side as a script: which clients can be opened, what commands and closes are answered, and
the record of everything that was asked of it.
-/

namespace RedisGateway

/-- What a call of a client comes to: a reply, or a failure. -/
abbrev Outcome := Except Failure Value

/-- What a client is opened with. -/
inductive ClientRequest where
  | standalone (keywords : Keywords)
  /-- A cluster client finds the cluster through any of its startup nodes. -/
  | cluster (keywords : Keywords) (nodes : List (String × Int))
  deriving DecidableEq, Repr

/-- A client, numbered in the order of opening. -/
abbrev ClientId := Nat

/-- A command with the arguments that a client gets. -/
structure Call where
  command : String
  arguments : List Value := []
  keywords : Fields := []
  deriving Repr, Inhabited

/-- Something that was asked of the remote side. -/
inductive Event where
  | opened (client : ClientId) (request : ClientRequest)
  | called (client : ClientId) (call : Call)
  | closed (client : ClientId)
  deriving Repr

/-- The fixed answers of one client. -/
structure ClientScript where
  ping : Option Outcome := none
  close : Option Outcome := none
  deriving Inhabited

/-- The remote side. -/
structure Remote where
  /-- The failure that meets everyone who opens a client. -/
  refusal : Option Failure := none
  /-- What meets those who open the next clients, before `refusal` counts: a failure, or nothing
  that stands in their way. -/
  upcoming : List (Option Failure) := []
  /-- The number of clients opened so far. -/
  opened : Nat := 0
  scripts : List (ClientId × ClientScript) := []
  /-- The answers that wait for each command, from whichever client it comes. -/
  replies : List (String × List Outcome) := []
  /-- What was asked, latest first. -/
  events : List Event := []
  deriving Inhabited

namespace Remote

def script (r : Remote) (c : ClientId) : ClientScript := (r.scripts.lookup c).getD {}

/-- Replaces the script of a client. -/
def setScript (r : Remote) (c : ClientId) (s : ClientScript) : Remote :=
  { r with scripts := (c, s) :: r.scripts.filter (·.1 ≠ c) }

def record (r : Remote) (e : Event) : Remote := { r with events := e :: r.events }

/-- What meets whoever opens the next client. -/
def nextRefusal (r : Remote) : Option Failure × Remote :=
  match r.upcoming with
  | next :: rest => (next, { r with upcoming := rest })
  | [] => (r.refusal, r)

/-- Opens a client. A refused one leaves no event. -/
def openClient (request : ClientRequest) (r : Remote) : Except Failure ClientId × Remote :=
  match r.nextRefusal with
  | (some f, r) => (.error f, r)
  | (none, r) => (.ok r.opened, { r.record (.opened r.opened request) with opened := r.opened + 1 })

/-- The answer of a command for which none waits. -/
def usualReply (command : String) : Outcome :=
  if command = "ping" then .ok (.flag true) else .ok .none

/-- Takes the answer that waits longest for a command. -/
def takeReply (r : Remote) (command : String) : Outcome × Remote :=
  match r.replies.lookup command with
  | some (o :: rest) =>
    (o, { r with replies := (command, rest) :: r.replies.filter (·.1 ≠ command) })
  | _ => (usualReply command, r)

/-- Lets answers wait for a command, behind those that wait already. -/
def addReplies (r : Remote) (command : String) (outcomes : List Outcome) : Remote :=
  let waiting := (r.replies.lookup command).getD []
  { r with replies := (command, waiting ++ outcomes) :: r.replies.filter (·.1 ≠ command) }

/-- Closes a client. -/
def close (c : ClientId) (r : Remote) : Outcome × Remote :=
  (((r.script c).close).getD (.ok .none), r.record (.closed c))

/-- The command that closes a client instead of being sent. -/
def closingCommand : String := "close"

/-- Sends a command through a client. -/
def send (c : ClientId) (call : Call) (r : Remote) : Outcome × Remote :=
  if call.command = closingCommand && call.arguments.isEmpty && call.keywords.isEmpty then r.close c
  else
    let r := r.record (.called c call)
    match (r.script c).ping with
    | some o => if call.command = "ping" then (o, r) else r.takeReply call.command
    | none => r.takeReply call.command

end Remote

/-- The remote side and the notices so far, latest first. -/
structure World where
  remote : Remote := {}
  journal : List Notice := []
  deriving Inhabited

namespace World

def note (w : World) (n : Notice) : World := { w with journal := n :: w.journal }

def noteAll (w : World) (ns : List Notice) : World := ns.foldl note w

end World

/-- An operation that may end in a fault and, either way, leaves a new state. -/
abbrev Act (σ α : Type) := ExceptT Fault (StateM σ) α

end RedisGateway
