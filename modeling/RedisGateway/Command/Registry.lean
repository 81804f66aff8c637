import RedisGateway.Command.Table

/-!
The executors of a manager: one for each category, made when it is first asked for.
-/

namespace RedisGateway

/-- An executor: the commands of a category, bound to the manager that made it. The number tells the
executors of one manager apart. -/
structure Executor where
  category : Category
  number : Nat
  deriving DecidableEq, Repr

/-- The executors that were made so far. -/
structure Registry where
  executors : List Executor := []
  deriving DecidableEq, Repr, Inhabited

namespace Registry

/-- The executor of a category, if it was made. -/
def find? (r : Registry) (c : Category) : Option Executor :=
  r.executors.find? (·.category = c)

/-- The executor of a category, made if there is none yet. -/
def obtain (r : Registry) (c : Category) : Executor × Registry :=
  match r.find? c with
  | some e => (e, r)
  | none =>
    let e : Executor := ⟨c, r.executors.length⟩
    (e, ⟨r.executors ++ [e]⟩)

/-- The executor of the category that a value names. -/
def ofValue (r : Registry) (v : Value) : Except Fault (Executor × Registry) :=
  match Category.ofValue? v with
  | some c => .ok (r.obtain c)
  | none => .error (.unknownCategory v)

end Registry
end RedisGateway
