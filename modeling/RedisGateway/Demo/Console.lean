import RedisGateway.Fault

/-!
What the demonstrations print: headings, numbered steps, outcomes and named values.
-/

namespace RedisGateway.Console

/-- A title between two lines. -/
def heading (title : String) (width : Nat) : String :=
  let line := "".pushn '=' width
  "\n" ++ line ++ "\n " ++ title ++ "\n" ++ line ++ "\n"

def step (number title : String) : String := "\n[Step " ++ number ++ "] " ++ title ++ "\n"

def success (message : String) : String := "[SUCCESS] " ++ message ++ "\n"

def error (message : String) : String := "[ERROR] " ++ message ++ "\n"

def info (name value : String) : String := "  - " ++ name ++ ": " ++ value ++ "\n"

/-- The width of headings that ask for none. -/
def usualWidth : Nat := 60

/-- A width is an integer, and a negative one counts as none. -/
def widthOf : Value → Except Fault Nat
  | .whole n => .ok n.toNat
  | .flag b => .ok (if b then 1 else 0)
  | _ => .error .argumentMismatch

/-- Something to print, by name. -/
inductive Form where
  | heading
  | step
  | success
  | error
  | info
  deriving DecidableEq, Repr

/-- The text of a form with its arguments. -/
def print : Form → List Value → Except Fault String
  | .heading, [title] => .ok (heading title.display usualWidth)
  | .heading, [title, width] => do return heading title.display (← widthOf width)
  | .step, [number, title] => .ok (Console.step number.display title.display)
  | .success, [message] => .ok (Console.success message.display)
  | .error, [message] => .ok (Console.error message.display)
  | .info, [name, value] => .ok (Console.info name.display value.display)
  | _, _ => .error .argumentMismatch

end RedisGateway.Console
