import Mathlib.Data.List.Basic
import RedisGateway.Proofs.Pool.Entry
import RedisGateway.Pool.Alone

/-!
Pools do not look at the numbers of their connections: a call on renumbered accounts, with
surroundings that answer for the renumbered connections what they answered for the old ones, does
the same under the new numbers.
-/

namespace RedisGateway

/-- The fault under new numbers for connections. -/
def Fault.renumbered (σ : Nat → Nat) : Fault → Fault
  | .forgottenConnection c => .forgottenConnection (σ c)
  | f => f

/-- What an operation comes to under new numbers: `rename` renumbers what it returns. -/
def renumberedBy {α : Type} (σ : Nat → Nat) (rename : α → α) : Except Fault α → Except Fault α
  | .ok a => .ok (rename a)
  | .error f => .error (f.renumbered σ)

namespace Pool

variable {policy : Policy} {p : Patience} {σ : Conn → Conn}

/-- What a call comes to under new numbers. -/
def Result.renumbered (σ : Conn → Conn) : Result → Result := renumberedBy σ (Option.map σ)

def Phase.renumbered (σ : Conn → Conn) : Phase → Phase
  | .seeking late again => .seeking late again
  | .parked => .parked
  | .withdrawing => .withdrawing
  | .vetting c => .vetting (σ c)
  | .dropping c => .dropping (σ c)
  | .discarding c => .discarding (σ c)
  | .opening => .opening
  | .forgoing f => .forgoing f
  | .enrolling c => .enrolling (σ c)
  | .refusing c => .refusing (σ c)
  | .delivering c fresh => .delivering (σ c) fresh
  | .announcing c fresh active => .announcing (σ c) fresh active
  | .accepting c => .accepting (σ c)
  | .checking c => .checking (σ c)
  | .settling c keep shut => .settling (σ c) keep shut
  | .retiring c shut => .retiring (σ c) shut
  | .counting => .counting
  | .tallying active => .tallying active
  | .shutting => .shutting
  | .sweeping c rest inUse => .sweeping (σ c) (rest.map σ) inUse
  | .finished r => .finished (Result.renumbered σ r)

def Core.renumbered (σ : Conn → Conn) (core : Core) : Core :=
  { core with
    idle := core.idle.map σ, inUse := core.inUse.map σ, returning := core.returning.map σ }

def Turn.renumbered (σ : Conn → Conn) (t : Turn) : Turn :=
  { t with core := t.core.renumbered σ, next := t.next.renumbered σ }

/-! ## Turns -/

theorem mem_renumbered (hσ : Function.Injective σ) {c : Conn} {cs : List Conn} :
    σ c ∈ cs.map σ ↔ c ∈ cs := List.mem_map_of_injective hσ

theorem contains_renumbered (hσ : Function.Injective σ) (c : Conn) (cs : List Conn) :
    (cs.map σ).contains (σ c) = cs.contains c := by
  rw [Bool.eq_iff_iff, List.contains_iff_mem, List.contains_iff_mem]
  exact mem_renumbered hσ

theorem insert_renumbered (hσ : Function.Injective σ) (c : Conn) (cs : List Conn) :
    (cs.map σ).insert (σ c) = (cs.insert c).map σ := by
  by_cases h : c ∈ cs
  · rw [List.insert_of_mem h, List.insert_of_mem ((mem_renumbered hσ).mpr h)]
  · rw [List.insert_of_not_mem h, List.insert_of_not_mem (mt (mem_renumbered hσ).mp h),
      List.map_cons]

theorem erase_renumbered (hσ : Function.Injective σ) (c : Conn) (cs : List Conn) :
    (cs.map σ).erase (σ c) = (cs.erase c).map σ := (List.map_erase hσ cs).symm

@[simp] theorem hasRoom_renumbered (core : Core) (l : Limits) :
    (core.renumbered σ).hasRoom l = core.hasRoom l := by
  simp [Core.hasRoom, Core.total, Core.renumbered]

theorem whenFull_renumbered (late : Bool) :
    (p.whenFull policy late).renumbered σ = p.whenFull policy late := by
  have e := whenFull_spec policy p late
  generalize p.whenFull policy late = next at e
  cases e <;> rfl

theorem seek_renumbered (hσ : Function.Injective σ) (late : Bool) (core : Core) :
    seek policy p late (core.renumbered σ) = (seek policy p late core).renumbered σ := by
  unfold seek
  by_cases hc : core.closed = true
  · rw [if_pos hc, if_pos (show (core.renumbered σ).closed = true from hc)]
    rfl
  · rw [if_neg hc, if_neg (show ¬(core.renumbered σ).closed = true from hc)]
    cases hi : core.idle with
    | cons c rest =>
      simp only [show (core.renumbered σ).idle = σ c :: rest.map σ by simp [Core.renumbered, hi]]
      have hu : (core.renumbered σ).inUse.insert (σ c) = (core.inUse.insert c).map σ :=
        insert_renumbered hσ c core.inUse
      rw [hu]
      split <;> rfl
    | nil =>
      simp only [show (core.renumbered σ).idle = [] by simp [Core.renumbered, hi],
        hasRoom_renumbered]
      split
      · rfl
      · simp only [Turn.renumbered, whenFull_renumbered]

theorem drop_renumbered (hσ : Function.Injective σ) (c : Conn) (core : Core) :
    drop (σ c) (core.renumbered σ) = (drop c core).renumbered σ := by
  have hu : (core.renumbered σ).inUse.erase (σ c) = (core.inUse.erase c).map σ :=
    erase_renumbered hσ c core.inUse
  simp only [drop, hu]
  rfl

theorem enrol_renumbered (hσ : Function.Injective σ) (c : Conn) (core : Core) :
    enrol (σ c) (core.renumbered σ) = (enrol c core).renumbered σ := by
  have hu : (core.renumbered σ).inUse.insert (σ c) = (core.inUse.insert c).map σ :=
    insert_renumbered hσ c core.inUse
  simp only [enrol, hu]
  by_cases hc : core.closed = true
  · rw [if_pos hc, if_pos (show (core.renumbered σ).closed = true from hc)]
    rfl
  · rw [if_neg hc, if_neg (show ¬(core.renumbered σ).closed = true from hc)]
    rfl

theorem deliver_renumbered (c : Conn) (fresh : Bool) (core : Core) :
    deliver (σ c) fresh (core.renumbered σ) = (deliver c fresh core).renumbered σ := by
  simp [deliver, Core.renumbered, Turn.renumbered, Phase.renumbered]

theorem announce_renumbered (c : Conn) (fresh : Bool) (active : Nat) (core : Core) :
    announce policy (σ c) fresh active (core.renumbered σ) =
      (announce policy c fresh active core).renumbered σ := by
  simp [announce, Core.renumbered, Turn.renumbered, Phase.renumbered, Result.renumbered,
    renumberedBy]

theorem accept_renumbered (hσ : Function.Injective σ) (c : Conn) (core : Core) :
    accept policy (σ c) (core.renumbered σ) = (accept policy c core).renumbered σ := by
  have hu : (core.renumbered σ).inUse.contains (σ c) = core.inUse.contains c :=
    contains_renumbered hσ c core.inUse
  have hr : (core.renumbered σ).returning.contains (σ c) = core.returning.contains c :=
    contains_renumbered hσ c core.returning
  have hc : (core.renumbered σ).closed = core.closed := rfl
  simp only [accept, hu, hr, hc]
  split
  · rfl
  · split
    · rfl
    · split <;> rfl

theorem settle_renumbered (hσ : Function.Injective σ) (c : Conn) (keep shut : Bool) (core : Core) :
    settle policy (σ c) keep shut (core.renumbered σ) =
      (settle policy c keep shut core).renumbered σ := by
  have hu : (core.renumbered σ).inUse.contains (σ c) = core.inUse.contains c :=
    contains_renumbered hσ c core.inUse
  have he : (core.renumbered σ).inUse.erase (σ c) = (core.inUse.erase c).map σ :=
    erase_renumbered hσ c core.inUse
  have hr : (core.renumbered σ).returning.erase (σ c) = (core.returning.erase c).map σ :=
    erase_renumbered hσ c core.returning
  have hc : (core.renumbered σ).closed = core.closed := rfl
  have hn : (core.renumbered σ).idle.length = core.idle.length := List.length_map σ
  simp only [settle, hu, he, hr, hc, hn]
  split
  · rfl
  · split <;> rfl

theorem count_renumbered (core : Core) : count (core.renumbered σ) = (count core).renumbered σ := by
  simp [count, Core.renumbered, Turn.renumbered, Phase.renumbered]

theorem tally_renumbered (active : Nat) (core : Core) :
    tally policy active (core.renumbered σ) = (tally policy active core).renumbered σ := by
  simp [tally, Core.renumbered, Turn.renumbered, Phase.renumbered, Result.renumbered, renumberedBy]

theorem sweep_renumbered (inUse : Nat) (cs : List Conn) :
    sweep policy inUse (cs.map σ) =
      ((sweep policy inUse cs).1.renumbered σ, (sweep policy inUse cs).2) := by
  cases cs <;> rfl

theorem shut_renumbered (core : Core) :
    shut policy (core.renumbered σ) = (shut policy core).renumbered σ := by
  unfold shut
  by_cases hc : core.closed = true
  · rw [if_pos hc, if_pos (show (core.renumbered σ).closed = true from hc)]
    rfl
  · rw [if_neg hc, if_neg (show ¬(core.renumbered σ).closed = true from hc)]
    have hs : sweep policy (core.renumbered σ).inUse.length (core.renumbered σ).idle.reverse =
        ((sweep policy core.inUse.length core.idle.reverse).1.renumbered σ,
          (sweep policy core.inUse.length core.idle.reverse).2) := by
      rw [← sweep_renumbered, List.map_reverse]
      exact congrArg (fun n => sweep policy n _) (List.length_map σ)
    simp only [hs]
    rfl

/-! ## Moves -/

/-- The request under new numbers. -/
def Request.renumbered (σ : Conn → Conn) : Request → Request
  | .supply => .supply
  | .ping c => .ping (σ c)
  | .close c => .close (σ c)

/-- The answer to a request under new numbers. -/
def Request.renumberedAnswer (σ : Conn → Conn) :
    (r : Request) → Except Failure r.Reply → Except Failure (r.renumbered σ).Reply
  | .supply, a => a.map σ
  | .ping _, a => a
  | .close _, a => a

/-- What a call goes on to under new numbers, with its notices. -/
def renumberedNext (σ : Conn → Conn) (next : Phase × List Notice) : Phase × List Notice :=
  (next.1.renumbered σ, next.2)

/-- A move, and the same move under new numbers. -/
inductive Move.Renumbers (σ : Conn → Conn) : Move → Move → Prop
  | hold {turn turn'} (h : ∀ core : Core, turn' (core.renumbered σ) = (turn core).renumbered σ) :
      Renumbers σ (.hold turn) (.hold turn')
  | ask {r resume resume'}
      (h : ∀ a, resume' (r.renumberedAnswer σ a) = renumberedNext σ (resume a)) :
      Renumbers σ (.ask r resume) (.ask (r.renumbered σ) resume')
  | park : Renumbers σ .park .park
  | stop {r} : Renumbers σ (.stop r) (.stop (Result.renumbered σ r))

theorem move_renumbers (hσ : Function.Injective σ) (phase : Phase) :
    Move.Renumbers σ (phase.move policy p) ((phase.renumbered σ).move policy p) := by
  cases phase with
  | seeking late again => exact .hold (seek_renumbered hσ late)
  | parked => exact .park
  | withdrawing => exact .hold fun core => rfl
  | vetting c =>
    refine @Move.Renumbers.ask σ (.ping c) _ _ fun a => ?_
    dsimp only [Request.renumberedAnswer]
    split <;> rfl
  | dropping c => exact .hold (drop_renumbered hσ c)
  | discarding c => exact @Move.Renumbers.ask σ (.close c) _ _ fun a => rfl
  | opening => exact @Move.Renumbers.ask σ .supply _ _ fun a => by cases a <;> rfl
  | forgoing f => exact .hold fun core => rfl
  | enrolling c => exact .hold (enrol_renumbered hσ c)
  | refusing c => exact @Move.Renumbers.ask σ (.close c) _ _ fun a => rfl
  | delivering c fresh => exact .hold (deliver_renumbered c fresh)
  | announcing c fresh active => exact .hold (announce_renumbered c fresh active)
  | accepting c => exact .hold (accept_renumbered hσ c)
  | checking c =>
    refine @Move.Renumbers.ask σ (.ping c) _ _ fun a => ?_
    dsimp only [Request.renumberedAnswer]
    split <;> rfl
  | settling c keep shut => exact .hold (settle_renumbered hσ c keep shut)
  | retiring c shut => exact @Move.Renumbers.ask σ (.close c) _ _ fun a => rfl
  | counting => exact .hold count_renumbered
  | tallying active => exact .hold (tally_renumbered active)
  | shutting => exact .hold shut_renumbered
  | sweeping c rest inUse =>
    refine @Move.Renumbers.ask σ (.close c) _ _ fun a => ?_
    simp only [sweep_renumbered]
    rfl
  | finished r => exact .stop

/-! ## Calls -/

/-- Surroundings, in states that `same` relates, answer under new numbers what they answered under
the old ones. -/
structure Surroundings.Renumber {τ : Type} (around : Surroundings τ) (σ : Conn → Conn)
    (same : τ → τ → Prop) : Prop where
  answer : ∀ (r : Request) {w w'}, same w w' →
    (around.answer (r.renumbered σ) w').1 = r.renumberedAnswer σ (around.answer r w).1 ∧
    same (around.answer r w).2 (around.answer (r.renumbered σ) w').2
  report : ∀ ns {w w'}, same w w' → same (around.report ns w) (around.report ns w')

/-- What a call leaves behind, and the same under new numbers. -/
def Alike {τ : Type} (σ : Conn → Conn) (same : τ → τ → Prop) (out out' : Result × Core × τ) :
    Prop :=
  out'.1 = Result.renumbered σ out.1 ∧ out'.2.1 = out.2.1.renumbered σ ∧ same out.2.2 out'.2.2

section Calls

variable {τ : Type} {around : Surroundings τ} {same : τ → τ → Prop} {w w' : τ}

theorem run_renumbered (hσ : Function.Injective σ) (ha : around.Renumber σ same) (fuel : Nat)
    (phase : Phase) (core : Core) (hw : same w w') :
    Alike σ same (phase.run around policy p fuel core w)
      ((phase.renumbered σ).run around policy p fuel (core.renumbered σ) w') := by
  induction fuel generalizing phase core w w' with
  | zero => exact ⟨rfl, rfl, hw⟩
  | succ fuel ih =>
    have hm := @move_renumbers policy p σ hσ phase
    simp only [Phase.run]
    generalize phase.move policy p = m at hm
    generalize (phase.renumbered σ).move policy p = m' at hm
    cases hm with
    | hold h =>
      simp only [h]
      exact ih _ _ (ha.report _ hw)
    | @ask r resume resume' h =>
      obtain ⟨h1, h2⟩ := ha.answer r hw
      simp only [h1, h]
      exact ih _ _ (ha.report _ h2)
    | park =>
      dsimp only
      split
      · exact ih (.seeking true true) _ hw
      · exact ⟨rfl, rfl, hw⟩
    | stop => exact ⟨rfl, rfl, hw⟩

theorem callBound_renumbered (core : Core) : (core.renumbered σ).callBound = core.callBound := by
  simp [Core.callBound, Core.renumbered]

theorem borrow_renumbered (policy : Policy) (hσ : Function.Injective σ)
    (ha : around.Renumber σ same) (core : Core) (hw : same w w') :
    Alike σ same (borrow around policy none core w)
      (borrow around policy none (core.renumbered σ) w') := by
  unfold borrow
  rw [callBound_renumbered]
  cases hp : policy.limits.patience none with
  | error f =>
    refine ⟨?_, rfl, hw⟩
    -- the pool's own limit is never out of range because of a connection
    unfold Limits.patience at hp
    dsimp only at hp
    split at hp
    · cases hp
    · split at hp <;> cases hp
      rfl
  | ok p => exact run_renumbered hσ ha _ (.seeking false false) core hw

theorem giveBack_renumbered (policy : Policy) (hσ : Function.Injective σ)
    (ha : around.Renumber σ same) (c : Conn) (core : Core) (hw : same w w') :
    Alike σ same (giveBack around policy c core w)
      (giveBack around policy (σ c) (core.renumbered σ) w') := by
  unfold giveBack
  rw [callBound_renumbered]
  exact run_renumbered hσ ha _ (.accepting c) core hw

theorem close_renumbered (policy : Policy) (hσ : Function.Injective σ)
    (ha : around.Renumber σ same) (core : Core) (hw : same w w') :
    Alike σ same (close around policy core w) (close around policy (core.renumbered σ) w') := by
  unfold close
  rw [callBound_renumbered]
  exact run_renumbered hσ ha _ .shutting core hw

theorem closeAll_renumbered (ha : around.Renumber σ same) (cs : List Conn) (hw : same w w') :
    same (closeAll around cs w) (closeAll around (cs.map σ) w') := by
  induction cs generalizing w w' with
  | nil => exact hw
  | cons c rest ih =>
    obtain ⟨h1, h2⟩ := ha.answer (.close c) hw
    have h1 : (around.answer (.close (σ c)) w').1 = (around.answer (.close c) w).1 := h1
    have h2 : same (around.answer (.close c) w).2 (around.answer (.close (σ c)) w').2 := h2
    simp only [closeAll, List.map_cons, h1]
    exact ih (ha.report _ h2)

theorem stock_renumbered (ha : around.Renumber σ same) (n : Nat) (idle : List Conn)
    (hw : same w w') :
    (stock around policy n (idle.map σ) w').1 =
        renumberedBy σ (List.map σ) (stock around policy n idle w).1 ∧
      same (stock around policy n idle w).2 (stock around policy n (idle.map σ) w').2 := by
  induction n generalizing idle w w' with
  | zero => exact ⟨rfl, hw⟩
  | succ n ih =>
    obtain ⟨h1, h2⟩ := ha.answer .supply hw
    have h1 : (around.answer .supply w').1 = (around.answer .supply w).1.map σ := h1
    have h2 : same (around.answer .supply w).2 (around.answer .supply w').2 := h2
    simp only [stock]
    generalize around.answer .supply w = out at h1 h2
    generalize around.answer .supply w' = out' at h1 h2
    obtain ⟨a, w₁⟩ := out
    obtain ⟨a', w₁'⟩ := out'
    cases h1
    cases a with
    | ok c => exact ih (c :: idle) (ha.report _ h2)
    | error f =>
      refine ⟨rfl, ?_⟩
      have h3 := closeAll_renumbered ha idle.reverse (ha.report [.poolNotOpened policy.name f] h2)
      rw [List.map_reverse] at h3
      exact h3

theorem openPool_renumbered (policy : Policy) (ha : around.Renumber σ same) (hw : same w w') :
    (openPool around policy w').1 =
        renumberedBy σ (Core.renumbered σ) (openPool around policy w).1 ∧
      same (openPool around policy w).2 (openPool around policy w').2 := by
  obtain ⟨h1, h2⟩ :=
    @stock_renumbered policy σ τ around same w w' ha policy.limits.minIdle.toNat [] hw
  rw [List.map_nil] at h1 h2
  simp only [openPool]
  generalize stock around policy policy.limits.minIdle.toNat [] w = out at h1 h2
  generalize stock around policy policy.limits.minIdle.toNat [] w' = out' at h1 h2
  obtain ⟨a, w₁⟩ := out
  obtain ⟨a', w₁'⟩ := out'
  cases h1
  cases a with
  | ok idle =>
    dsimp only [renumberedBy]
    split
    · exact ⟨rfl, ha.report _ h2⟩
    · exact ⟨rfl, h2⟩
  | error f => exact ⟨rfl, h2⟩

end Calls
end Pool
end RedisGateway
