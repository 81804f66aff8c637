import RedisGateway.Pool.Alone
import RedisGateway.Pool.System

/-!
A pool in use: calls that run side by side, and what callers and connections have to do with it.
Every turn under the lock and every answer of the supplier or of a connection is one step of some
call, and steps follow one another in any order.
-/

namespace RedisGateway.Pool

/-! ## What a call has in hand -/

namespace Phase

/-- How many places a call has reserved. -/
def reserved : Phase → Nat
  | .opening | .forgoing _ | .enrolling _ => 1
  | _ => 0

/-- The new connection that a call has yet to enter in the accounts. -/
def unregistered : Phase → List Conn
  | .enrolling c => [c]
  | _ => []

/-- The connections that a call is about to close. -/
def doomed : Phase → List Conn
  | .discarding c | .refusing c | .retiring c _ => [c]
  | .sweeping c rest _ => c :: rest
  | _ => []

/-- The connection whose return is between its two turns under the lock. -/
def takenBack : Phase → List Conn
  | .checking c | .settling c .. => [c]
  | _ => []

/-- The connection in use that a call looks after: it vets it, hands it out or takes it back. -/
def minded : Phase → List Conn
  | .vetting c | .dropping c | .delivering c _ | .announcing c .. => [c]
  | .checking c | .settling c .. => [c]
  | _ => []

/-- What a call was asked to take back and has not looked up yet. -/
def claimed : Phase → List Conn
  | .accepting c => [c]
  | _ => []

/-- The connection that a borrower got. -/
def delivered : Phase → List Conn
  | .finished (.ok (some c)) => [c]
  | _ => []

/-- A waiter that was woken or is out of time and has not looked again yet. -/
def isAstir : Phase → Bool
  | .seeking _ again => again
  | _ => false

end Phase

/-! ## The opening of a pool -/

/-- What the opening of a pool comes to, and what surrounds the pool then. -/
inductive Opening {σ : Type} (around : Surroundings σ) (policy : Policy) (w : σ) :
    Except Fault Core → σ → Prop where
  | notStocked {f w'} (hs : stock around policy policy.limits.minIdle.toNat [] w = (.error f, w')) :
      Opening around policy w (.error f) w'
  | opened {idle w'}
      (hs : stock around policy policy.limits.minIdle.toNat [] w = (.ok idle, w'))
      (hl : policy.limits.isShowable = true) :
      Opening around policy w (.ok { idle })
        (around.report [.poolOpened policy.name policy.limits.maxTotal policy.limits.maxIdle
          policy.limits.minIdle] w')
  /-- The connections are open, and the limits cannot be reported. -/
  | notReported {idle w'}
      (hs : stock around policy policy.limits.minIdle.toNat [] w = (.ok idle, w'))
      (hl : policy.limits.isShowable = false) :
      Opening around policy w (.error .integerTooLong) w'

theorem openPool_of_isShowable {σ : Type} {around : Surroundings σ} {policy : Policy} {w w' : σ}
    {idle : List Conn} (hl : policy.limits.isShowable = true)
    (hs : stock around policy policy.limits.minIdle.toNat [] w = (.ok idle, w')) :
    openPool around policy w = (.ok { idle },
      around.report [.poolOpened policy.name policy.limits.maxTotal policy.limits.maxIdle
        policy.limits.minIdle] w') := by
  simp only [openPool, hs, hl, if_true]

theorem openPool_of_not_isShowable {σ : Type} {around : Surroundings σ} {policy : Policy}
    {w w' : σ} {idle : List Conn} (hl : policy.limits.isShowable = false)
    (hs : stock around policy policy.limits.minIdle.toNat [] w = (.ok idle, w')) :
    openPool around policy w = (.error .integerTooLong, w') := by
  simp only [openPool, hs, hl, Bool.false_eq_true, if_false]

theorem opening_of_openPool {σ : Type} {around : Surroundings σ} {policy : Policy} {w w' : σ}
    {opened : Except Fault Core} (h : openPool around policy w = (opened, w')) :
    Opening around policy w opened w' := by
  simp only [openPool] at h
  split at h
  · rename_i f w₁ hs
    cases h
    exact .notStocked hs
  · rename_i idle w₁ hs
    split at h
    · rename_i hl
      cases h
      exact .opened hs hl
    · rename_i hl
      cases h
      exact .notReported hs (by simpa using hl)

theorem stock_ok {σ : Type} {around : Surroundings σ} {policy : Policy} {n : Nat}
    {idle opened : List Conn} {w w' : σ} (h : stock around policy n idle w = (.ok opened, w')) :
    opened.length = n + idle.length := by
  induction n generalizing idle w with
  | zero =>
    simp only [stock, Prod.mk.injEq, Except.ok.injEq] at h
    obtain ⟨rfl, -⟩ := h
    omega
  | succ n ih =>
    simp only [stock] at h
    split at h
    · have := ih h
      simp only [List.length_cons] at this
      omega
    · simp at h

/-! ## Tracked systems and their steps -/

/-- A pool with its calls, and what is known around it. -/
structure TrackedSystem where
  system : System
  /-- The connections that the supplier opened. -/
  opened : List Conn
  /-- The connections that were closed, once for every time. -/
  closed : List Conn := []
  /-- The connections that borrowers hold, each with the call that delivered it. -/
  lent : List (Nat × Conn) := []
  /-- What was offered to the pool without being borrowed from it. -/
  strangers : List Conn := []

/-- Whether a loan is out is decided by comparing loans. -/
instance : LawfulBEq (Nat × Conn) := inferInstance

/-- What can happen at a pool. -/
inductive Happening where
  /-- Someone asks for a connection. -/
  | borrow (timeout : Option Timeout)
  /-- A borrower gives back what one call delivered. -/
  | giveBack (loan : Nat × Conn)
  /-- Someone gives back something that no borrow delivered or that was given back before. -/
  | offer (c : Conn)
  | close
  /-- A call holds the lock for one turn. -/
  | turn (i : Nat)
  | supplied (i : Nat) (c : Conn)
  | refused (i : Nat) (cause : Failure)
  | pinged (i : Nat) (answer : Except Failure Value)
  | closed (i : Nat) (answer : Except Failure Unit)
  /-- The time of a borrower is over. -/
  | lapse (i : Nat)

namespace TrackedSystem

/-- The accounts of the pool. -/
abbrev core (s : TrackedSystem) : Core := s.system.core

/-- A call starts. -/
def start (s : TrackedSystem) (p : Patience) (phase : Phase) : TrackedSystem :=
  { s with system := s.system.start p phase }

/-- A call has its turn. What it delivers at the end is lent. -/
def hold (s : TrackedSystem) (i : Nat) (turn : Core → Turn) : TrackedSystem :=
  { s with
    system := (s.system.hold i turn).1
    lent := (turn s.core).next.delivered.map (i, ·) ++ s.lent }

/-- A call goes on after an answer. -/
def goOn (s : TrackedSystem) (i : Nat) (next : Phase) : TrackedSystem :=
  { s with system := s.system.setPhase i next }

def withOpened (s : TrackedSystem) (c : Conn) : TrackedSystem := { s with opened := c :: s.opened }

def withClosed (s : TrackedSystem) (c : Conn) : TrackedSystem := { s with closed := c :: s.closed }

def withStranger (s : TrackedSystem) (c : Conn) : TrackedSystem :=
  { s with strangers := c :: s.strangers }

def withoutLoan (s : TrackedSystem) (loan : Nat × Conn) : TrackedSystem :=
  { s with lent := s.lent.erase loan }

/-- The next move of a call. -/
def move? (policy : Policy) (s : TrackedSystem) (i : Nat) : Option Move :=
  s.system.threads[i]?.map fun t => t.phase.move policy t.patience

/-- The steps that a pool can take. -/
inductive Step (policy : Policy) : TrackedSystem → Happening → TrackedSystem → Prop where
  | borrow {s timeout p} (h : policy.limits.patience timeout = .ok p) :
      Step policy s (.borrow timeout) (s.start p (.seeking false false))
  | giveBack {s loan} (h : loan ∈ s.lent) :
      Step policy s (.giveBack loan)
        ((s.start .endless (.accepting loan.2)).withoutLoan loan)
  | offer {s c} :
      Step policy s (.offer c) ((s.start .endless (.accepting c)).withStranger c)
  | close {s} : Step policy s .close (s.start .endless .shutting)
  | turn {s i turn} (h : s.move? policy i = some (.hold turn)) :
      Step policy s (.turn i) (s.hold i turn)
  | supplied {s i c resume} (h : s.move? policy i = some (.ask .supply resume)) :
      Step policy s (.supplied i c) ((s.goOn i (resume (.ok c)).1).withOpened c)
  | refused {s i f resume} (h : s.move? policy i = some (.ask .supply resume)) :
      Step policy s (.refused i f) (s.goOn i (resume (.error f)).1)
  | pinged {s i c a resume} (h : s.move? policy i = some (.ask (.ping c) resume)) :
      Step policy s (.pinged i a) (s.goOn i (resume a).1)
  | closed {s i c a resume} (h : s.move? policy i = some (.ask (.close c) resume)) :
      Step policy s (.closed i a) ((s.goOn i (resume a).1).withClosed c)
  | lapse {s i t limit} (h : s.system.threads[i]? = some t) (hp : t.patience = .upTo limit) :
      Step policy s (.lapse i) { s with system := s.system.expire i }

/-- What callers and the supplier keep to. -/
abbrev Rule := TrackedSystem → Happening → Prop

/-- The supplier opens a new connection each time: one that it never opened before and that no one
has passed to the pool as something else. -/
def Novel : Rule
  | s, .supplied _ c => c ∉ s.opened ∧ c ∉ s.strangers
  | _, _ => True

/-- Callers give back what their borrows delivered, once each; besides, only what is no connection
of the pool. -/
def Honest : Rule
  | s, .offer c => c ∉ s.opened
  | _, _ => True

/-- Any number of steps that keep to a rule. -/
inductive Leads (policy : Policy) (rule : Rule) : TrackedSystem → TrackedSystem → Prop where
  | refl {s} : Leads policy rule s s
  | step {s t u h} : Leads policy rule s t → rule t h → Step policy t h u → Leads policy rule s u

/-- A pool that was opened with success, whatever surrounds it, from a supplier that opens a new
connection each time. -/
def JustOpened (policy : Policy) (s : TrackedSystem) : Prop :=
  ∃ (σ : Type) (around : Surroundings σ) (w w' : σ) (core : Core),
    openPool around policy w = (.ok core, w') ∧ core.idle.Nodup ∧
      s = { system := { core }, opened := core.idle }

/-- What can become of a pool after its opening. -/
def Reachable (policy : Policy) (rule : Rule) (s : TrackedSystem) : Prop :=
  ∃ s₀, JustOpened policy s₀ ∧ Leads policy rule s₀ s

theorem JustOpened.shape {policy : Policy} {s : TrackedSystem} (h : JustOpened policy s) :
    ∃ idle : List Conn, idle.Nodup ∧ idle.length = policy.limits.minIdle.toNat ∧
      s = { system := { core := { idle } }, opened := idle } := by
  obtain ⟨σ, around, w, w', core, ho, hn, rfl⟩ := h
  cases opening_of_openPool ho with
  | opened hs => exact ⟨_, hn, by simpa using stock_ok hs, rfl⟩

/-- Only a pool that can report its limits is ever in use. -/
theorem Reachable.isShowable {policy : Policy} {rule : Rule} {s : TrackedSystem}
    (h : Reachable policy rule s) : policy.limits.isShowable = true := by
  obtain ⟨s₀, ⟨σ, around, w, w', core, ho, -⟩, -⟩ := h
  cases opening_of_openPool ho with
  | opened _ hl => exact hl

end TrackedSystem
end RedisGateway.Pool
