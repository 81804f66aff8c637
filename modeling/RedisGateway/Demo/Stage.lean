import RedisGateway.Demo.Console
import RedisGateway.Manager

/-!
The stage of a demonstration: a state that is worked on, and what was printed so far. Operational
faults are shown and end a part of the demonstration; any other fault ends all of it.
-/

namespace RedisGateway.Demo

/-- A state, and what was printed, latest first. -/
structure Stage (σ : Type) where
  state : σ
  printed : List String := []

namespace Stage

/-- All that was printed. -/
def output {σ : Type} (s : Stage σ) : String := String.join s.printed.reverse

end Stage

/-- Prints a text. -/
def say {σ : Type} (text : String) : Act (Stage σ) Unit :=
  modify fun s => { s with printed := text :: s.printed }

/-- An operation on the state, which prints nothing. -/
def perform {σ α : Type} (act : Act σ α) : Act (Stage σ) α := fun s =>
  let (result, state) := act.run s.state
  (result, { s with state })

/-- Runs a part. An operational fault in it is printed behind the words for what failed. -/
def attempt {σ α : Type} (failed : String) (part : Act (Stage σ) α) : Act (Stage σ) (Option α) :=
  tryCatch (part >>= fun a => pure (some a)) fun f =>
    if f.isOperational then do
      say (Console.error (failed ++ ": " ++ f.message))
      return none
    else throw f

/-- Runs a part with a manager of its own. -/
def withManager {α : Type} (m : Manager) (part : Act (Stage Site) α) : Act (Stage World) α :=
  fun s =>
    let (result, t) := part.run ⟨⟨m, s.state⟩, s.printed⟩
    (result, ⟨t.state.world, t.printed⟩)

/-- Calls a command of a category. -/
def command (category : Category) (name : String) (args : List Value) (named : Fields) :
    Act (Stage Site) Value :=
  perform (Manager.command (.text category.name) name args named)

end RedisGateway.Demo
