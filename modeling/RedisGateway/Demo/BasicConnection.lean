import RedisGateway.Demo.Stage
import RedisGateway.Settings.Document

/-!
A demonstration of a connection: a manager is made from settings, runs a few commands through its
executors, and is closed.
-/

namespace RedisGateway.Demo.BasicConnection

def greetingKey : String := "example:greeting"

def userKey : String := "example:user:1"

/-- Makes a manager from the settings at a place, or from the environment. -/
def openManager (place : Settings.Place) (env : Environment) :
    Act (Stage World) (Option Manager) := do
  say (Console.step "1" "Initialize Connection Manager")
  attempt "Failed to initialize" do
    let settings ← (Settings.load place env : Except Fault Settings)
    let c := settings.connection
    say (Console.info "Hosts" c.hosts)
    say (Console.info "Cluster" (Value.flag c.cluster).display)
    say (Console.info "Pooling" (Value.flag c.pooling).display)
    let m ← perform fun w => Manager.ofSettings settings w
    say (Console.success "Connection Manager initialized")
    return m

/-- Whether the server answers. -/
def checkStatus : Act (Stage Site) Bool := do
  say (Console.step "2" "Check Redis Server Status")
  let answered ← attempt "Status check failed" do
    let _ ← command .connection "ping" [] []
    say (Console.success "Redis server is available and responsive")
  return answered.isSome

/-- Writes, reads and deletes a text and a hash. -/
def runCommands : Act (Stage Site) Unit := do
  say (Console.step "3" "Execute String And Hash Commands")
  let _ ← attempt "Command failed" do
    let _ ← command .string "set" [.text greetingKey, .text "hello"] [("ex", .whole 60)]
    let greeting ← command .string "get" [.text greetingKey] []
    say (Console.info greetingKey greeting.display)
    let user := Value.ofFields [("name", .text "ada"), ("role", .text "admin")]
    let _ ← command .hash "hset" [.text userKey] [("mapping", user)]
    let stored ← command .hash "hgetall" [.text userKey] []
    say (Console.info userKey stored.display)
    let _ ← command .key "delete" [.text greetingKey, .text userKey] []
    say (Console.success "Commands completed successfully")

/-- What a manager does between its initialization and its close. The flag says whether the
demonstration goes on. -/
def body : Act (Stage Site) Bool := do
  if ← checkStatus then
    runCommands
    return true
  else return false

def takeaways : String :=
  "\nKey Takeaways:\n  - ConnectionManager.init may succeed only once\n" ++
    "  - Executors are created lazily and cached per category\n" ++
    "  - Always close the manager (or use it as a context manager)\n"

/-- The whole demonstration. -/
def run (place : Settings.Place) (env : Environment) : Act (Stage World) Unit := do
  say (Console.heading "Redis Basic Connection Example" Console.usualWidth)
  match ← openManager place env with
  | none => return
  | some m =>
    if ← withManager m (Manager.thenAlways body (perform Manager.close)) then
      say (Console.step "4" "Close Connection")
      say (Console.success "Connection closed when leaving the manager context")
      say (Console.heading "Example Completed" Console.usualWidth)
      say takeaways

end RedisGateway.Demo.BasicConnection
