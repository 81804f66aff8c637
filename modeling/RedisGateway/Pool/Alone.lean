import RedisGateway.Pool.Phase

/-!
Calls of a pool that run one after another, each to its end before the next one starts, and the
opening of a pool.
-/

namespace RedisGateway.Pool

/-- What surrounds a pool: who answers its requests, and where its notices go. -/
structure Surroundings (σ : Type) where
  answer : (r : Request) → σ → Except Failure r.Reply × σ
  report : List Notice → σ → σ

/-- Runs a call to its end. Alone, a parked call is never woken: either its time runs out, or it
waits for ever. -/
def Phase.run {σ : Type} (s : Surroundings σ) (policy : Policy) (p : Patience) :
    Nat → Phase → Core → σ → Result × Core × σ
  | 0, _, core, w => (.error .waitsForever, core, w)
  | fuel + 1, phase, core, w =>
    match phase.move policy p with
    | .stop r => (r, core, w)
    | .park =>
      if p.runsOut then run s policy p fuel (.seeking true true) core w
      else (.error .waitsForever, core, w)
    | .hold turn =>
      let t := turn core
      run s policy p fuel t.next t.core (s.report t.notices w)
    | .ask r resume =>
      let (a, w) := s.answer r w
      let (next, notices) := resume a
      run s policy p fuel next core (s.report notices w)

/-- More phases than a call goes through: six for each idle connection and a dozen besides. -/
def Core.callBound (core : Core) : Nat := 6 * core.idle.length + 12

/-- Borrows a connection. -/
def borrow {σ : Type} (s : Surroundings σ) (policy : Policy) (timeout : Option Timeout)
    (core : Core) (w : σ) : Result × Core × σ :=
  match policy.limits.patience timeout with
  | .error f => (.error f, core, w)
  | .ok p => (Phase.seeking false false).run s policy p core.callBound core w

/-- Takes a connection back. -/
def giveBack {σ : Type} (s : Surroundings σ) (policy : Policy) (c : Conn) (core : Core) (w : σ) :
    Result × Core × σ :=
  (Phase.accepting c).run s policy .endless core.callBound core w

/-- Closes the pool. -/
def close {σ : Type} (s : Surroundings σ) (policy : Policy) (core : Core) (w : σ) :
    Result × Core × σ :=
  Phase.shutting.run s policy .endless core.callBound core w

/-- Closes connections one after another, whatever becomes of each. -/
def closeAll {σ : Type} (s : Surroundings σ) : List Conn → σ → σ
  | [], w => w
  | c :: rest, w =>
    let (a, w) := s.answer (.close c) w
    closeAll s rest (s.report (closingNotices a) w)

/-- Opens `n` connections one after another on top of those that are idle. The first failure ends
it: the connections are closed again, the oldest one first. -/
def stock {σ : Type} (s : Surroundings σ) (policy : Policy) :
    Nat → List Conn → σ → Except Fault (List Conn) × σ
  | 0, idle, w => (.ok idle, w)
  | n + 1, idle, w =>
    match s.answer .supply w with
    | (.ok c, w) => stock s policy n (c :: idle) (s.report [.connectionOpened policy.name] w)
    | (.error f, w) =>
      (.error (.notOpened f), closeAll s idle.reverse (s.report [.poolNotOpened policy.name f] w))

/-- Opens a pool with the idle connections that its limits ask for. A pool that cannot report its
limits is not opened, but its connections are not closed either. -/
def openPool {σ : Type} (s : Surroundings σ) (policy : Policy) (w : σ) : Except Fault Core × σ :=
  let l := policy.limits
  match stock s policy l.minIdle.toNat [] w with
  | (.error f, w) => (.error f, w)
  | (.ok idle, w) =>
    if l.isShowable then
      (.ok { idle }, s.report [.poolOpened policy.name l.maxTotal l.maxIdle l.minIdle] w)
    else (.error .integerTooLong, w)

end RedisGateway.Pool
