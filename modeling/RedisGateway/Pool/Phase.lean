import RedisGateway.Notice
import RedisGateway.Pool.Core

/-!
Calls of a pool, taken apart into phases. A call either holds the lock for one turn, or asks
something of a connection or of the supplier while it does not hold the lock, or is parked until
another call wakes it. `Phase.move` says which, and what comes after.
-/

namespace RedisGateway.Pool

/-- What a pool asks for outside its lock. -/
inductive Request where
  /-- A new connection. -/
  | supply
  | ping (c : Conn)
  | close (c : Conn)
  deriving DecidableEq, Repr

/-- What answers a request that does not fail. -/
abbrev Request.Reply : Request → Type
  | .supply => Conn
  | .ping _ => Value
  | .close _ => Unit

/-- What a call comes to: the connection that was borrowed, or nothing. -/
abbrev Result := Except Fault (Option Conn)

/-- How far a call has come. -/
inductive Phase where
  /-- About to look for a connection; `late` if its time to wait is over, `again` if it was parked
  and is on its way back. -/
  | seeking (late again : Bool)
  /-- Waiting to be woken. -/
  | parked
  /-- In line for a wait that is longer than anyone can wait, and about to leave it. -/
  | withdrawing
  /-- Checking a connection that was idle. -/
  | vetting (c : Conn)
  /-- About to give up a stale connection. -/
  | dropping (c : Conn)
  /-- Closing a stale connection. -/
  | discarding (c : Conn)
  /-- Opening a connection. -/
  | opening
  /-- About to free the place of a connection that could not be opened. -/
  | forgoing (cause : Failure)
  /-- About to enter a new connection in the accounts. -/
  | enrolling (c : Conn)
  /-- Closing a new connection of a pool that was closed meanwhile. -/
  | refusing (c : Conn)
  /-- About to hand out a connection. -/
  | delivering (c : Conn) (fresh : Bool)
  /-- Handing out a connection, after a look at how many are in use. -/
  | announcing (c : Conn) (fresh : Bool) (active : Nat)
  /-- About to take a connection back. -/
  | accepting (c : Conn)
  /-- Checking a connection that was returned. -/
  | checking (c : Conn)
  /-- About to keep a returned connection or not; `shut` if the pool was closed when it came. -/
  | settling (c : Conn) (keep shut : Bool)
  /-- Closing a connection that is not kept. -/
  | retiring (c : Conn) (shut : Bool)
  /-- At the end of a return. -/
  | counting
  /-- At the end of a return, after a look at how many connections are in use. -/
  | tallying (active : Nat)
  /-- About to close the pool. -/
  | shutting
  /-- Closing the connections that were idle, of which `c` is next. -/
  | sweeping (c : Conn) (rest : List Conn) (inUse : Nat)
  | finished (result : Result)

/-- Which parked calls a turn wakes. -/
inductive Wake where
  | nobody
  /-- The one that has been parked for longest. -/
  | first
  | everybody
  deriving DecidableEq, Repr

/-- The outcome of a turn under the lock. -/
structure Turn where
  core : Core
  next : Phase
  wake : Wake := .nobody
  notices : List Notice := []

/-- What a call does next. -/
inductive Move where
  | hold (turn : Core → Turn)
  | ask (request : Request) (resume : Except Failure request.Reply → Phase × List Notice)
  | park
  | stop (result : Result)

/-- A pool's name and limits. -/
structure Policy where
  name : String
  limits : Limits
  deriving DecidableEq, Repr, Inhabited

/-- The name of a pool that is given none. -/
def Policy.usualName : String := "redis-pool"

/-- What a failed attempt to close a connection leaves to report. -/
def closingNotices {α : Type} : Except Failure α → List Notice
  | .error f => [.closingFailed f]
  | .ok _ => []

/-- A connection that answers a ping, with a value that holds. -/
def isHealthy : Except Failure Value → Bool
  | .ok v => v.holds
  | .error _ => false

/-- What a borrower does that finds neither a connection nor room for one. -/
def Patience.whenFull (p : Patience) (policy : Policy) (late : Bool) : Phase :=
  let limits := policy.limits
  if !limits.blockWhenExhausted then
    .finished (.error (.poolExhausted policy.name limits.maxTotal))
  else match p with
    | .endless => .parked
    | .upTo t =>
      if late && t.isNumber || t.isOver then
        .finished (.error (.waitElapsed policy.name t.text limits.maxTotal))
      else if t.isTooLong then .withdrawing
      else .parked

/-- A borrower's look at the accounts: the idle connection in front, else a place for a new one,
else what its patience says. -/
def seek (policy : Policy) (p : Patience) (late : Bool) (core : Core) : Turn :=
  if core.closed then { core, next := .finished (.error (.poolClosed policy.name)) }
  else match core.idle with
    | c :: rest =>
      { core := { core with idle := rest, inUse := core.inUse.insert c }
        next := if policy.limits.testOnBorrow then .vetting c else .delivering c false }
    | [] =>
      if core.hasRoom policy.limits then
        { core := { core with creating := core.creating + 1 }, next := .opening }
      else { core, next := p.whenFull policy late }

/-- A borrower gives up a wait for which no one can wait. -/
def withdraw (core : Core) : Turn := { core, next := .finished (.error .waitOutOfRange) }

/-- A stale connection leaves the accounts. -/
def drop (c : Conn) (core : Core) : Turn :=
  { core := { core with inUse := core.inUse.erase c }, next := .discarding c, wake := .first }

/-- A place that was reserved is free again. -/
def forgo (f : Failure) (core : Core) : Turn :=
  { core := { core with creating := core.creating - 1 }
    next := .finished (.error (.notOpened f)), wake := .first }

/-- A new connection takes its place, unless the pool is closed. -/
def enrol (c : Conn) (core : Core) : Turn :=
  let core := { core with creating := core.creating - 1 }
  if core.closed then { core, next := .refusing c, wake := .everybody }
  else { core := { core with inUse := core.inUse.insert c }, next := .delivering c true }

/-- The connections in use are counted before one is handed out. -/
def deliver (c : Conn) (fresh : Bool) (core : Core) : Turn :=
  { core, next := .announcing c fresh core.inUse.length }

/-- The counts are reported with the connection. -/
def announce (policy : Policy) (c : Conn) (fresh : Bool) (active : Nat) (core : Core) : Turn :=
  let idle := core.idle.length
  { core, next := .finished (.ok (some c))
    notices := [if fresh then .newBorrowed policy.name active idle
      else .idleBorrowed policy.name active idle] }

/-- A connection is taken back only if it is in use and no other call is taking it back. -/
def accept (policy : Policy) (c : Conn) (core : Core) : Turn :=
  if !core.inUse.contains c || core.returning.contains c then
    { core, next := .finished (.ok none), notices := [.returnIgnored policy.name] }
  else
    { core := { core with returning := c :: core.returning }
      next := if core.closed then .settling c false true
        else if policy.limits.testOnReturn then .checking c
        else .settling c true false }

/-- A connection that was taken back becomes idle if it is to be kept, the pool is open and there
is room for it among the idle ones. -/
def settle (policy : Policy) (c : Conn) (keep shut : Bool) (core : Core) : Turn :=
  let core := { core with returning := core.returning.erase c }
  if !core.inUse.contains c then
    { core, next := .finished (.error (.forgottenConnection c)) }
  else
    let core := { core with inUse := core.inUse.erase c }
    if keep && !core.closed && policy.limits.keepsMore core.idle.length then
      { core := { core with idle := c :: core.idle }, next := .counting, wake := .first }
    else { core, next := .retiring c shut, wake := .first }

/-- The connections in use are counted at the end of a return. -/
def count (core : Core) : Turn := { core, next := .tallying core.inUse.length }

/-- The counts are reported at the end of a return. -/
def tally (policy : Policy) (active : Nat) (core : Core) : Turn :=
  { core, next := .finished (.ok none)
    notices := [.returned policy.name active core.idle.length] }

/-- Closes what remains of the connections that were idle. -/
def sweep (policy : Policy) (inUse : Nat) : List Conn → Phase × List Notice
  | c :: rest => (.sweeping c rest inUse, [])
  | [] => (.finished (.ok none),
      (if inUse = 0 then [] else [.stillInUse inUse policy.name]) ++ [.poolClosed policy.name])

/-- The pool closes, once. The connections that were idle longest are closed first. -/
def shut (policy : Policy) (core : Core) : Turn :=
  if core.closed then { core, next := .finished (.ok none) }
  else
    let (next, notices) := sweep policy core.inUse.length core.idle.reverse
    { core := { core with idle := [], closed := true }, next, notices, wake := .everybody }

/-- Whether a call is in line for a wake-up after a turn that leads to this phase. -/
def Phase.isInLine : Phase → Bool
  | .parked | .withdrawing => true
  | _ => false

/-- The phase of a call that is woken; only a parked one has to be. -/
def Phase.roused : Phase → Phase
  | .parked => .seeking false true
  | phase => phase

/-- The phase of a call whose time to wait runs out. -/
def Phase.expired : Phase → Phase
  | .parked => .seeking true true
  | .seeking _ again => .seeking true again
  | phase => phase

/-- What a call does next. -/
def Phase.move (policy : Policy) (p : Patience) : Phase → Move
  | .seeking late _ => .hold (seek policy p late)
  | .parked => .park
  | .withdrawing => .hold withdraw
  | .vetting c => .ask (.ping c) fun a =>
      if isHealthy a then (.delivering c false, [])
      else (.dropping c, [.staleDiscarded policy.name])
  | .dropping c => .hold (drop c)
  | .discarding c => .ask (.close c) fun a => (.seeking false false, closingNotices a)
  | .opening => .ask .supply fun
      | .ok c => (.enrolling c, [.connectionOpened policy.name])
      | .error f => (.forgoing f, [])
  | .forgoing f => .hold (forgo f)
  | .enrolling c => .hold (enrol c)
  | .refusing c => .ask (.close c) fun a =>
      (.finished (.error (.poolClosed policy.name)), closingNotices a)
  | .delivering c fresh => .hold (deliver c fresh)
  | .announcing c fresh active => .hold (announce policy c fresh active)
  | .accepting c => .hold (accept policy c)
  | .checking c => .ask (.ping c) fun a =>
      if isHealthy a then (.settling c true false, [])
      else (.settling c false false, [.unhealthyDiscarded policy.name])
  | .settling c keep shut => .hold (settle policy c keep shut)
  | .retiring c shut => .ask (.close c) fun a =>
      (.counting, closingNotices a ++ if shut then [.closedAtReturn policy.name] else [])
  | .counting => .hold count
  | .tallying active => .hold (tally policy active)
  | .shutting => .hold (shut policy)
  | .sweeping c rest inUse => .ask (.close c) fun a =>
      let (next, notices) := sweep policy inUse rest
      (next, closingNotices a ++ notices)
  | .finished r => .stop r

end RedisGateway.Pool
