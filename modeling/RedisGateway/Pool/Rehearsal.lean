import RedisGateway.Pool.Alone
import RedisGateway.Pool.System
import RedisGateway.Remote

/-!
Rehearsals: a pool driven step by step against a script. Calls run as threads; a thread goes on
until it ends, is parked, or meets a gate that is closed, and the threads it wakes go on after it in
the order in which they were woken.
-/

namespace RedisGateway.Pool

/-- How the supplier answers. -/
inductive SupplyOutcome where
  | fresh
  | failing (f : Failure)
  /-- A connection that was supplied before. -/
  | again (c : Conn)
  deriving Repr, Inhabited

/-- An answer that may be held back by a gate. -/
structure Gated (α : Type) where
  value : α
  gate : Option String := none
  deriving Repr, Inhabited

/-- How a connection behaves. -/
structure ConnScript where
  ping : Gated Outcome := { value := .ok (.flag true) }
  close : Option Failure := none
  deriving Inhabited

/-- One step of a rehearsal. -/
inductive Step where
  /-- Starts a borrow. It is not waited for if it is left running; else a limited wait is over when
  nothing else happens. -/
  | borrow (timeout : Option Timeout) (leave : Bool)
  /-- Starts a return. A number of no connection stands for a foreign object. -/
  | giveBack (conn : Option Conn)
  /-- Starts a borrow with a body, which reads the accounts, meets a gate and may fail, and a return
  after it. -/
  | lease (timeout : Option Timeout) (leave : Bool) (gate : Option String)
      (failure : Option Failure)
  | close
  | stats
  | script (conn : Conn) (ping : Option (Gated Outcome)) (close : Option (Option Failure))
  | supply (outcomes : List (Gated SupplyOutcome))
  | openGate (gate : String)
  deriving Inhabited

/-- What a step or a call comes to. -/
inductive Reply where
  | done
  | conn (c : Conn)
  | reading (s : Stats)
  | lease (c : Conn) (s : Stats)
  deriving Repr

/-- What a thread does when its call has ended. -/
inductive Plan where
  | answer
  | body (gate : Option String) (failure : Option Failure)
  /-- The return after a body, which had this result. -/
  | leaving (result : Except Fault Reply)

/-- What a thread holds in front of a gate. -/
inductive Held where
  | supply (outcome : SupplyOutcome)
  | ping (outcome : Outcome)
  | body (c : Conn) (result : Except Fault Reply)

/-- What is known of a thread besides its call. -/
structure Worker where
  /-- The step that started it. -/
  step : Nat
  plan : Plan
  held : Option Held := none

/-- The state of a rehearsal. -/
structure Rehearsal where
  policy : Policy
  system : System := {}
  /-- The workers, numbered as the threads of the system. -/
  workers : List Worker := []
  supplies : List (Gated SupplyOutcome) := []
  scripts : List (Conn × ConnScript) := []
  /-- How many connections were supplied. -/
  supplied : Nat := 0
  openGates : List String := []
  /-- No gate holds anyone back. -/
  ungated : Bool := false
  /-- The threads in front of closed gates, in the order in which they came. -/
  heldBack : List (Nat × String) := []
  /-- The threads that can go on. -/
  queue : List Nat := []
  created : List Conn := []
  pinged : List Conn := []
  closed : List Conn := []
  /-- The calls that ended in this step. -/
  done : List (Nat × Except Fault Reply) := []
  /-- Notices, latest first. -/
  journal : List Notice := []

namespace Rehearsal

def report (ns : List Notice) (r : Rehearsal) : Rehearsal :=
  { r with journal := ns.reverse ++ r.journal }

def scriptOf (r : Rehearsal) (c : Conn) : ConnScript := (r.scripts.lookup c).getD {}

def isOpen (r : Rehearsal) : Option String → Bool
  | none => true
  | some g => r.ungated || r.openGates.contains g

/-- The supplier's next answer. -/
def takeSupply (r : Rehearsal) : Gated SupplyOutcome × Rehearsal :=
  match r.supplies with
  | o :: rest => (o, { r with supplies := rest })
  | [] => ({ value := .fresh }, r)

/-- The supplier answers; new connections are numbered in the order of their answers. -/
def supply (o : SupplyOutcome) (r : Rehearsal) : Except Failure Conn × Rehearsal :=
  match o with
  | .fresh =>
    (.ok r.supplied, { r with supplied := r.supplied + 1, created := r.created ++ [r.supplied] })
  | .failing f => (.error f, r)
  | .again c => (.ok c, r)

/-- A connection is closed. -/
def closeConn (c : Conn) (r : Rehearsal) : Except Failure Unit × Rehearsal :=
  let answer := match (r.scriptOf c).close with
    | some f => .error f
    | none => .ok ()
  (answer, { r with closed := r.closed ++ [c] })

/-- A connection is pinged; its answer may be held back. -/
def pingConn (c : Conn) (r : Rehearsal) : Gated Outcome × Rehearsal :=
  ((r.scriptOf c).ping, { r with pinged := r.pinged ++ [c] })

/-- The surroundings of a pool that meets no gates. -/
def surroundings : Surroundings Rehearsal where
  answer
    | .supply, r => let (o, r) := r.takeSupply; r.supply o.value
    | .ping c, r => let (o, r) := r.pingConn c; (o.value, r)
    | .close c, r => r.closeConn c
  report := report

/-- A thread's call has a new phase. -/
def goOn (r : Rehearsal) (i : Nat) (next : Phase × List Notice) : Rehearsal :=
  report next.2 { r with system := r.system.setPhase i next.1 }

/-- A thread comes to a gate. -/
def holdBack (r : Rehearsal) (i : Nat) (gate : Option String) (held : Held) : Rehearsal :=
  { r with
    workers := r.workers.modify i fun w => { w with held := some held }
    heldBack := r.heldBack ++ (gate.map fun g => (i, g)).toList }

/-- A thread's call ends the step that started it. -/
def finish (r : Rehearsal) (w : Worker) (result : Except Fault Reply) : Rehearsal :=
  { r with done := r.done ++ [(w.step, result)] }

/-- The body of a lease ends, and the return begins. -/
def leave (r : Rehearsal) (i : Nat) (c : Conn) (result : Except Fault Reply) : Rehearsal :=
  { r with
    workers := r.workers.modify i fun w => { w with plan := .leaving result, held := none }
    system := r.system.setPhase i (.accepting c) }

/-- What a call's result is as the reply to a step. -/
def replyOf : Option Conn → Reply
  | some c => .conn c
  | none => .done

/-- A call has ended: the thread ends with it, or goes on with its plan. -/
def follow (r : Rehearsal) (i : Nat) (w : Worker) (result : Result) : Rehearsal × Bool :=
  match w.plan, result with
  | .answer, res => (r.finish w (res.map replyOf), false)
  | .body .., .error f => (r.finish w (.error f), false)
  | .body .., .ok none => (r.finish w (.ok .done), false)
  | .body gate failure, .ok (some c) =>
    let reading := r.system.core.stats r.policy.name r.policy.limits
    let outcome : Except Fault Reply := match failure with
      | some f => .error (.passedOn f)
      | none => .ok (.lease c reading)
    if r.isOpen gate then (r.leave i c outcome, true)
    else (r.holdBack i gate (.body c outcome), false)
  | .leaving _, .error f => (r.finish w (.error f), false)
  | .leaving outcome, .ok _ => (r.finish w outcome, false)

/-- A thread does its next move. The flag says whether it can go on after it. -/
def advance (r : Rehearsal) (i : Nat) : Rehearsal × Bool :=
  match r.system.threads[i]?, r.workers[i]? with
  | some t, some w =>
    let free := { r with workers := r.workers.modify i fun w => { w with held := none } }
    match t.phase.move r.policy t.patience with
    | .stop result =>
      match w.held with
      | some (.body c outcome) => (free.leave i c outcome, true)
      | _ => r.follow i w result
    | .park => (r, false)
    | .hold turn =>
      let woken := System.woken (turn r.system.core).wake r.system.line
      let (system, turn) := r.system.hold i turn
      (report turn.notices { r with system, queue := r.queue ++ woken }, true)
    | .ask .supply resume =>
      match w.held with
      | some (.supply o) => let (a, r) := free.supply o; (r.goOn i (resume a), true)
      | _ =>
        let (o, r) := r.takeSupply
        if r.isOpen o.gate then let (a, r) := r.supply o.value; (r.goOn i (resume a), true)
        else (r.holdBack i o.gate (.supply o.value), false)
    | .ask (.ping c) resume =>
      match w.held with
      | some (.ping o) => (free.goOn i (resume o), true)
      | _ =>
        let (o, r) := r.pingConn c
        if r.isOpen o.gate then (r.goOn i (resume o.value), true)
        else (r.holdBack i o.gate (.ping o.value), false)
    | .ask (.close c) resume => let (a, r) := r.closeConn c; (r.goOn i (resume a), true)
  | _, _ => (r, false)

/-- Lets the threads go on until none of them can. -/
def settle : Nat → Rehearsal → Rehearsal
  | 0, r => r
  | fuel + 1, r =>
    match r.queue with
    | [] => r
    | i :: rest =>
      let (r, more) := { r with queue := rest }.advance i
      settle fuel (if more then { r with queue := i :: r.queue } else r)

/-- More moves than the threads can do: every connection is checked and closed at most once for
every thread that is woken. -/
def bound (r : Rehearsal) : Nat :=
  let core := r.system.core
  let size := r.workers.length + core.idle.length + core.inUse.length + r.supplies.length + 4
  16 * size * size

def settled (r : Rehearsal) : Rehearsal := r.settle r.bound

/-- Starts a thread. -/
def spawn (r : Rehearsal) (step : Nat) (plan : Plan) (p : Patience) (phase : Phase) : Rehearsal :=
  let i := r.workers.length
  settled { r with
    system := r.system.start p phase, workers := r.workers ++ [⟨step, plan, none⟩]
    queue := r.queue ++ [i] }

/-- The last thread's time runs out if it is parked. -/
def expireLast (r : Rehearsal) : Rehearsal :=
  let i := r.workers.length - 1
  match r.system.phase? i with
  | some .parked => settled { r with system := r.system.expire i, queue := r.queue ++ [i] }
  | _ => r

/-- Starts a thread that borrows. -/
def spawnBorrow (r : Rehearsal) (step : Nat) (plan : Plan) (timeout : Option Timeout)
    (leave : Bool) : Rehearsal :=
  match r.policy.limits.patience timeout with
  | .error f => r.finish ⟨step, plan, none⟩ (.error f)
  | .ok .endless => r.spawn step plan .endless (.seeking false false)
  | .ok p =>
    let r := r.spawn step plan p (.seeking false false)
    if leave || !p.runsOut then r else r.expireLast

/-- Opens gates and lets the threads in front of them go on. -/
def release (r : Rehearsal) (opens : String → Bool) : Rehearsal :=
  let (go, stay) := r.heldBack.partition fun h => opens h.2
  settled { r with heldBack := stay, queue := r.queue ++ go.map (·.1) }

/-- What a step shows: its own outcome, or nothing if its call goes on. -/
structure Shown where
  outcome : Option (Except Fault Reply)
  created : List Conn
  pinged : List Conn
  closed : List Conn
  done : List (Nat × Except Fault Reply)
  stats : Stats

/-- What the step with a number shows. -/
def shown (r : Rehearsal) (step : Nat) : Shown :=
  { outcome := r.done.lookup step
    created := r.created, pinged := r.pinged, closed := r.closed
    done := r.done.filter (·.1 ≠ step)
    stats := r.system.core.stats r.policy.name r.policy.limits }

/-- Ends a step at once. -/
def answer (r : Rehearsal) (step : Nat) (reply : Reply) : Rehearsal :=
  { r with done := (step, .ok reply) :: r.done }

/-- Plays one step. -/
def play (r : Rehearsal) (step : Nat) : Step → Rehearsal
  | .borrow timeout leave => r.spawnBorrow step .answer timeout leave
  | .giveBack conn => r.spawn step .answer .endless (.accepting (conn.getD r.supplied))
  | .lease timeout leave gate failure => r.spawnBorrow step (.body gate failure) timeout leave
  | .close => r.spawn step .answer .endless .shutting
  | .stats => r.answer step (.reading (r.system.core.stats r.policy.name r.policy.limits))
  | .script conn ping close =>
    let old := r.scriptOf conn
    let new : ConnScript := { ping := ping.getD old.ping, close := close.getD old.close }
    answer { r with scripts := (conn, new) :: r.scripts.filter (·.1 ≠ conn) } step .done
  | .supply outcomes => answer { r with supplies := r.supplies ++ outcomes } step .done
  | .openGate gate =>
    answer ({ r with openGates := gate :: r.openGates }.release (· = gate)) step .done

/-- Nothing is shown yet of the next step. -/
def fresh (r : Rehearsal) : Rehearsal :=
  { r with created := [], pinged := [], closed := [], done := [] }

/-- Plays the steps from a number on and shows each of them. -/
def playAll (r : Rehearsal) (step : Nat) : List Step → List Shown × Rehearsal
  | [] => ([], r)
  | s :: rest =>
    let r := r.fresh.play step s
    let (shown, last) := playAll r (step + 1) rest
    (r.shown step :: shown, last)

/-- Opens the pool, which meets no gates. -/
def begin (r : Rehearsal) : Except Fault Unit × Rehearsal :=
  let (opened, r) := openPool surroundings r.policy r
  (opened.map fun _ => (),
    match opened with
    | .ok core => { r with system := { r.system with core } }
    | .error _ => r)

/-- The script ends: all gates open, connections do only what is usual, and the pool is closed. -/
def wrapUp (r : Rehearsal) (steps : Nat) : Rehearsal :=
  ({ r with ungated := true, scripts := [] }.release fun _ => true).play steps .close

end Rehearsal
end RedisGateway.Pool
