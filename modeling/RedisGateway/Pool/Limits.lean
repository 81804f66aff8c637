import RedisGateway.Fault

/-!
The size and checking policy of a connection pool, and how long a borrower waits.
-/

namespace RedisGateway.Pool

/-- The settings of a pool. A negative `maxTotal` or `maxIdle` means that there is no limit, a
negative `maxWaitMs` that borrowers wait for as long as it takes. -/
structure Limits where
  /-- The most connections, idle and in use together. -/
  maxTotal : Int := 8
  /-- The most connections that are kept for reuse. -/
  maxIdle : Int := 8
  /-- How many connections a new pool opens. -/
  minIdle : Int := 0
  maxWaitMs : Int := -1
  /-- Borrowers wait while no connection can be had. -/
  blockWhenExhausted : Bool := true
  /-- An idle connection is pinged before it is handed out. -/
  testOnBorrow : Bool := false
  /-- A returned connection is pinged before it is kept. -/
  testOnReturn : Bool := false
  deriving DecidableEq, Repr, Inhabited

namespace Limits

/-- Why the limits contradict one another, if they do. -/
def contradiction? (l : Limits) : Option String :=
  let excess (bound : String) (n : Int) : String :=
    match Fault.showInteger l.minIdle, Fault.showInteger n with
    | .ok least, .ok most =>
      "min_idle (" ++ least ++ ") cannot exceed " ++ bound ++ " (" ++ most ++ ")"
    | .error f, _ | _, .error f => f.message
  if 0 ≤ l.maxIdle ∧ l.maxIdle < l.minIdle then some (excess "max_idle" l.maxIdle)
  else if 0 ≤ l.maxTotal ∧ l.maxTotal < l.minIdle then some (excess "max_total" l.maxTotal)
  else none

/-- Limits that can be met. -/
def Valid (l : Limits) : Prop := 0 ≤ l.minIdle ∧ l.contradiction? = none

instance (l : Limits) : Decidable l.Valid := inferInstanceAs (Decidable (_ ∧ _))

/-- Limits that a pool can report: none of the three that it names is too long to be shown. -/
def isShowable (l : Limits) : Bool :=
  Fault.isShowable l.maxTotal && Fault.isShowable l.maxIdle && Fault.isShowable l.minIdle

theorem isShowable_of_lt {l : Limits}
    (h : l.maxTotal.natAbs < 1000000 ∧ l.maxIdle.natAbs < 1000000 ∧ l.minIdle.natAbs < 1000000) :
    l.isShowable = true := by
  simp only [isShowable, Bool.and_eq_true]
  exact ⟨⟨Fault.isShowable_of_lt h.1, Fault.isShowable_of_lt h.2.1⟩, Fault.isShowable_of_lt h.2.2⟩

/-- Whether a pool that holds `n` connections may hold one more. -/
def allowsMore (l : Limits) (n : Nat) : Bool := l.maxTotal < 0 || (n : Int) < l.maxTotal

/-- Whether a pool that keeps `n` idle connections may keep one more. -/
def keepsMore (l : Limits) (n : Nat) : Bool := l.maxIdle < 0 || (n : Int) < l.maxIdle

end Limits

/-- A number of seconds. -/
inductive Timeout where
  | whole (seconds : Int)
  | real (seconds : Binary64)
  deriving DecidableEq, Repr

namespace Timeout

def text : Timeout → String
  | .whole n => toString n
  | .real x => x.render

def value : Timeout → Binary64
  | .whole n => .ofInt n
  | .real x => x

/-- A timeout that cannot be added to the clock: an integer beyond the range of binary64. -/
def isUnusable : Timeout → Bool
  | .whole n => Binary64.exceedsRange n
  | .real _ => false

/-- A timeout that is over as soon as it starts. -/
def isOver (t : Timeout) : Bool := t.value.atMostZero

/-- A timeout for which no one can wait: more microseconds than fit into 63 bits, in thousands. -/
def isTooLong (t : Timeout) : Bool := t.value.exceeds 9223372036854775 1000000

/-- A timeout that is over at some time, as every one is that is a number. -/
def isNumber (t : Timeout) : Bool := t != .real .nan

end Timeout

/-- How long a borrower waits for a connection. -/
inductive Patience where
  | endless
  | upTo (t : Timeout)
  deriving DecidableEq, Repr

namespace Patience

/-- Whether a wait is over at some time by itself. -/
def runsOut : Patience → Bool
  | .endless => false
  | .upTo t => t.isNumber

/-- A wait that is longer than anyone can wait. -/
def isTooLong : Patience → Bool
  | .endless => false
  | .upTo t => t.isTooLong

end Patience

/-- The patience of a borrower: the timeout it gives, or else the limit of the pool. -/
def Limits.patience (l : Limits) : Option Timeout → Except Fault Patience
  | some t => if t.isUnusable then .error .waitOutOfRange else .ok (.upTo t)
  | none =>
    if l.maxWaitMs < 0 then .ok .endless
    else if Binary64.exceedsRange l.maxWaitMs then .error .waitOutOfRange
    else .ok (.upTo (.real ((Binary64.ofInt l.maxWaitMs).divNat 1000)))

end RedisGateway.Pool
