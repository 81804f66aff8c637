import RedisGateway.Pool.Alone

/-!
Pools do not look at their surroundings. Where the surroundings of one pool are those of another one
seen through a map of their states, a call of the first pool comes to what it comes to at the
second.
-/

namespace RedisGateway.Pool

/-- Surroundings that are others seen through a map of states. -/
structure Surroundings.Maps {σ τ : Type} (around : Surroundings σ) (around' : Surroundings τ)
    (view : σ → τ) : Prop where
  answer : ∀ r w, around'.answer r (view w) = ((around.answer r w).1, view (around.answer r w).2)
  report : ∀ ns w, around'.report ns (view w) = view (around.report ns w)

/-- What a call leaves behind, seen through a map of states. -/
def seen {σ τ : Type} (view : σ → τ) (out : Result × Core × σ) : Result × Core × τ :=
  (out.1, out.2.1, view out.2.2)

section

variable {σ τ : Type} {around : Surroundings σ} {around' : Surroundings τ} {view : σ → τ}
variable (h : around.Maps around' view) (policy : Policy)
include h

theorem run_seen (p : Patience) (fuel : Nat) (phase : Phase) (core : Core) (w : σ) :
    phase.run around' policy p fuel core (view w) =
      seen view (phase.run around policy p fuel core w) := by
  induction fuel generalizing phase core w with
  | zero => rfl
  | succ fuel ih =>
    -- the next phase depends on the accounts and on the answer, and the view changes neither
    simp only [Phase.run]
    cases phase.move policy p with
    | stop r => rfl
    | hold turn => simp only [h.report, ih]
    | ask r resume => simp only [h.answer, h.report, ih]
    | park =>
      dsimp only
      split
      · exact ih (.seeking true true) core w
      · rfl

theorem borrow_seen (timeout : Option Timeout) (core : Core) (w : σ) :
    borrow around' policy timeout core (view w) =
      seen view (borrow around policy timeout core w) := by
  unfold borrow
  cases policy.limits.patience timeout with
  | error f => rfl
  | ok p => exact run_seen h policy p _ _ core w

theorem giveBack_seen (c : Conn) (core : Core) (w : σ) :
    giveBack around' policy c core (view w) = seen view (giveBack around policy c core w) :=
  run_seen h policy .endless _ _ core w

theorem close_seen (core : Core) (w : σ) :
    close around' policy core (view w) = seen view (close around policy core w) :=
  run_seen h policy .endless _ _ core w

omit policy in
theorem closeAll_seen (cs : List Conn) (w : σ) :
    closeAll around' cs (view w) = view (closeAll around cs w) := by
  induction cs generalizing w with
  | nil => rfl
  | cons c rest ih => simp only [closeAll, h.answer, h.report, ih]

theorem stock_seen (n : Nat) (idle : List Conn) (w : σ) :
    stock around' policy n idle (view w) =
      ((stock around policy n idle w).1, view (stock around policy n idle w).2) := by
  induction n generalizing idle w with
  | zero => rfl
  | succ n ih =>
    simp only [stock, h.answer .supply w]
    obtain ⟨a, w₁⟩ := around.answer .supply w
    cases a with
    | ok c => simp only [h.report, ih]
    | error f => simp only [h.report, closeAll_seen h]

theorem openPool_seen (w : σ) :
    openPool around' policy (view w) =
      ((openPool around policy w).1, view (openPool around policy w).2) := by
  simp only [openPool, stock_seen h]
  obtain ⟨stocked, w₁⟩ := stock around policy policy.limits.minIdle.toNat [] w
  cases stocked with
  | ok idle =>
    simp only [h.report]
    split <;> rfl
  | error f => rfl

end
end RedisGateway.Pool
