import RedisGateway.Pool.Limits

/-!
The accounts of a pool, which are only read and changed under its lock.
-/

namespace RedisGateway.Pool

/-- A physical connection, by its number. -/
abbrev Conn := Nat

/-- The accounts of a pool. -/
structure Core where
  /-- Connections kept for reuse, the one returned last in front. -/
  idle : List Conn := []
  /-- Connections that are handed out or being checked, each once. -/
  inUse : List Conn := []
  /-- Connections whose return is in progress; they are still in use. -/
  returning : List Conn := []
  /-- Places reserved for connections that are being opened. -/
  creating : Nat := 0
  closed : Bool := false
  deriving DecidableEq, Repr, Inhabited

namespace Core

/-- How many connections count against the limit of the pool. -/
def total (c : Core) : Nat := c.idle.length + c.inUse.length + c.creating

/-- Whether another connection may be opened. -/
def hasRoom (c : Core) (l : Limits) : Bool := l.allowsMore c.total

end Core

/-- A reading of the accounts. -/
structure Stats where
  pool : String
  idle : Nat
  active : Nat
  creating : Nat
  maxTotal : Int
  maxIdle : Int
  closed : Bool
  deriving DecidableEq, Repr

/-- The accounts of a pool as they are shown. -/
def Core.stats (c : Core) (pool : String) (l : Limits) : Stats :=
  { pool, idle := c.idle.length, active := c.inUse.length, creating := c.creating
    maxTotal := l.maxTotal, maxIdle := l.maxIdle, closed := c.closed }

/-- The reading as a record. -/
def Stats.toFields (s : Stats) : List (String × Value) :=
  [("name", .text s.pool), ("idle", .whole s.idle), ("active", .whole s.active),
   ("creating", .whole s.creating), ("max_total", .whole s.maxTotal),
   ("max_idle", .whole s.maxIdle), ("closed", .flag s.closed)]

end RedisGateway.Pool
