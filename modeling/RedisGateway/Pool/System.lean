import RedisGateway.Pool.Phase

/-!
A pool under calls that run side by side. Every call is a thread of its own, in some phase; threads
that wait stand in a line, and a wake-up goes to the head of the line.
-/

namespace RedisGateway.Pool

/-- A call in progress. -/
structure Thread where
  patience : Patience := .endless
  phase : Phase

/-- A pool with its calls. -/
structure System where
  core : Core := {}
  /-- The threads that wait, first come first served. One whose time ran out, or that cannot wait
  for as long as it is to, stays in line until it holds the lock again. -/
  line : List Nat := []
  /-- The calls, numbered in the order in which they started. -/
  threads : List Thread := []

namespace System

/-- The phase of a thread. -/
def phase? (s : System) (i : Nat) : Option Phase := (s.threads[i]?).map (·.phase)

/-- A thread goes on to a phase. -/
def setPhase (s : System) (i : Nat) (next : Phase) : System :=
  { s with threads := s.threads.modify i fun t => { t with phase := next } }

/-- A call starts. -/
def start (s : System) (p : Patience) (phase : Phase) : System :=
  { s with threads := s.threads ++ [⟨p, phase⟩] }

/-- A thread is woken, to look for a connection again. -/
def rouse (s : System) (i : Nat) : System :=
  { s with threads := s.threads.modify i fun t => { t with phase := t.phase.roused } }

/-- The threads in line that a turn wakes. -/
def woken (w : Wake) (line : List Nat) : List Nat :=
  match w with
  | .nobody => []
  | .first => line.take 1
  | .everybody => line

/-- The line after the threads that a turn wakes have left it. -/
def remaining (w : Wake) (line : List Nat) : List Nat :=
  match w with
  | .nobody => line
  | .first => line.drop 1
  | .everybody => []

/-- A thread holds the lock for one turn. It has left the line when the turn begins, and is last in
line if it is to wait at its end. -/
def hold (s : System) (i : Nat) (turn : Core → Turn) : System × Turn :=
  let t := turn s.core
  let line := s.line.erase i
  let line := if t.next.isInLine then line ++ [i] else line
  let s := { s with core := t.core, line := remaining t.wake line }
  ((woken t.wake line).foldl rouse (s.setPhase i t.next), t)

/-- The time that a thread has to wait runs out. -/
def expire (s : System) (i : Nat) : System :=
  { s with threads := s.threads.modify i fun t => { t with phase := t.phase.expired } }

end System
end RedisGateway.Pool
