import RedisGateway.Demo.Stage
import RedisGateway.Text.Numeral

/-!
A demonstration of a pool: workers count through a pooled manager, and the accounts of the pool are
shown before and after.
-/

namespace RedisGateway.Demo.PoolUsage

/-- The variable that names the hosts, in this spelling only. -/
def hostsVariable : String := "REDIS_HOSTS"

/-- The hosts that the environment names, or else the usual ones. -/
def hostsOf (env : Environment) : String :=
  (env.entries.lookup hostsVariable).getD "127.0.0.1:6379"

/-- What the demonstration is run with. -/
structure Plan where
  hosts : String
  workers : Int := 16
  commandsPerWorker : Int := 50

/-- The limits of the pool that the demonstration gives itself. -/
def givenLimits : Fields :=
  [(Pool.Limits.maxTotalField.name, .whole 4), (Pool.Limits.maxIdleField.name, .whole 4),
   (Pool.Limits.maxWaitField.name, .whole 5000)]

/-- The options of its connections. -/
def options : Options :=
  .mapping [("database", .whole (-1)), ("connectionTimeoutMs", .whole 2000)]

/-- The count that a reply stands for: a number without its fraction, or a numeral. -/
def countOf (reply : Value) : Except Fault Int :=
  match reply with
  | .whole n => .ok n
  | .flag b => .ok (if b then 1 else 0)
  | .text s => Text.integerIn 10 (Text.points s)
  | .brokenText ns => Text.integerIn 10 ns
  | .bytes bs =>
    if bs.all (· < 128) then
      Text.integerOf 10 reply (bs.map fun b => Char.ofNat b.toNat)
    else .error (.numeralMalformed reply 10)
  | .real .nan => .error .countNotANumber
  | .real x => match x.truncate? with
    | some n => .ok n
    | none => .error .countInfinite
  | _ => .error .argumentMismatch

/-- Increments a key as often as is asked. -/
def countUp (key : String) : Nat → Act (Stage Site) Unit
  | 0 => pure ()
  | n + 1 => do
    let _ ← command .string "incr" [.text key] []
    countUp key n

/-- What one worker does: it counts, reads its count and deletes it. -/
def worker (commands : Int) (number : Nat) : Act (Stage Site) Int := do
  let key := "example:pool:" ++ toString number
  countUp key commands.toNat
  let count ← countOf (← command .string "get" [.text key] [])
  let _ ← command .key "delete" [.text key] []
  return count

/-- Runs workers, each of them to its end, even if another one fails. The first fault among them
stands for all. -/
def runWorkers (commands : Int) : List Nat → Act (Stage Site) (List Int)
  | [] => pure []
  | number :: rest => fun s =>
    let (count, s) := (worker commands number).run s
    let (counts, s) := (runWorkers commands rest).run s
    (count.bind fun n => counts.map (n :: ·), s)

/-- Shows the accounts of the pool. -/
def showPool : Act (Stage Site) Unit := do
  let stats := match Manager.stats (← get).state.manager with
    | some s => Value.ofFields s.toFields
    | none => .none
  say (Console.info "Pool" stats.display)

/-- What is done with the pool. -/
def usePool (plan : Plan) : Act (Stage Site) Unit := do
  showPool
  say (Console.step "2"
    ("Run " ++ toString plan.workers ++ " workers on at most 4 connections"))
  let _ ← attempt "Worker failed" do
    if plan.workers ≤ 0 then throw .noWorkers
    let counts ← runWorkers plan.commandsPerWorker (List.range plan.workers.toNat)
    say (Console.info "Counters" (Value.list (counts.map .whole)).display)
    say (Console.success "All workers finished")
  say (Console.step "3" "Inspect And Close Pool")
  showPool
  perform Manager.closePool
  say (Console.success "Connection pool closed")

/-- The whole demonstration. -/
def run (plan : Plan) (env : Environment) : Act (Stage World) Unit := do
  say (Console.heading "Redis Connection Pool Example" Console.usualWidth)
  say (Console.step "1" "Initialize Pooled Connection Manager")
  let limits ← (Pool.Limits.resolve givenLimits env : Except Fault _)
  let m ← perform fun w => let (m, w) := Manager.create { pooling := true, limits } w; (.ok m, w)
  withManager m do
    match ← attempt "Failed to initialize"
        (perform (Manager.init plan.hosts (.text "") options)) with
    | none => return
    | some () => usePool plan

end RedisGateway.Demo.PoolUsage
