import RedisGateway.Proofs.Pool.Capacity
import RedisGateway.Proofs.Pool.Custody

/-!
Calls that run one after another. Each of them comes to its end, since every move leaves it less to
do, and what it leaves behind follows from what one turn and one answer keep.
-/

namespace RedisGateway.Pool

variable {policy : Policy} {p : Patience}

/-! ## The moves that remain -/

/-- How many moves a call may still make: up to four for each connection that is idle, to try it and
give it up, and some for every other phase. -/
def Phase.effort (p : Patience) : Phase → Core → Nat
  | .finished _, _ => 1
  | .withdrawing, _ | .announcing .., _ | .refusing _, _ | .forgoing _, _ | .tallying _, _ => 2
  | .delivering .., _ | .counting, _ => 3
  | .enrolling _, _ | .retiring .., _ => 4
  | .opening, _ | .settling .., _ => 5
  | .checking _, _ => 6
  | .accepting _, _ => 7
  | .seeking late _, core => 6 * core.idle.length + if late then 7 else 9
  | .parked, core => if p.runsOut then 6 * core.idle.length + 8 else 1
  | .discarding _, core => 6 * core.idle.length + 10
  | .dropping _, core => 6 * core.idle.length + 11
  | .vetting _, core => 6 * core.idle.length + 12
  | .sweeping _ rest _, _ => rest.length + 3
  | .shutting, core => core.idle.length + 4

theorem effort_pos (phase : Phase) (core : Core) : 0 < phase.effort p core := by
  cases phase with
  | seeking late again => cases late <;> exact Nat.succ_pos _
  | parked =>
    simp only [Phase.effort]
    split <;> exact Nat.succ_pos _
  | _ => exact Nat.succ_pos _

theorem effort_sweep (n : Nat) (cs : List Conn) (core : Core) :
    (sweep policy n cs).1.effort p core < cs.length + 3 := by
  cases cs with
  | nil => exact (by decide : 1 < 3)
  | cons c rest =>
    show rest.length + 3 < (c :: rest).length + 3
    rw [List.length_cons]
    omega

/-- A turn after which the call does not park leaves it less to do. -/
theorem Entry.effort_lt {phase next : Phase} {core core' : Core} {wake : Wake}
    (e : Entry policy phase core core' next wake) (hp : next ≠ .parked) :
    next.effort p core' < phase.effort p core := by
  -- what a borrower comes to without trying an idle connection takes six moves at most
  have few : ∀ n late again core, n < 7 → n < (Phase.seeking late again).effort p core := by
    intro n late again core hn
    simp only [Phase.effort]
    split <;> omega
  cases e with
  | turnedAway hc => exact few 1 _ _ _ (by decide)
  | reuse ho hi hn =>
    rcases hn with rfl | rfl
    · simp only [Phase.effort, hi, List.length_cons]
      split <;> omega
    · exact few 3 _ _ _ (by decide)
  | reserve ho hi hr => exact few 5 _ _ _ (by decide)
  | full ho hi hr hn =>
    rcases hn with rfl | rfl | ⟨f, rfl⟩
    · exact absurd rfl hp
    · exact few 2 _ _ _ (by decide)
    · exact few 1 _ _ _ (by decide)
  | drop => exact Nat.lt_succ_self _
  | accept hu hr hn =>
    rcases hn with rfl | ⟨keep, shut, rfl⟩ <;> simp [Phase.effort]
  | @shut core ho =>
    have h : (sweep policy core.inUse.length core.idle.reverse).1.effort p
        { core with idle := [], closed := true } < core.idle.reverse.length + 3 := effort_sweep ..
    rw [List.length_reverse] at h
    exact Nat.lt_succ_of_lt h
  | _ => simp [Phase.effort]

theorem whenFull_parks {late : Bool} (h : p.whenFull policy late = .parked) :
    late = true → p.runsOut = false := by
  have e := whenFull_spec policy p late
  rw [h] at e
  cases e with
  | waitsOn => exact fun _ => rfl
  | waits _ hn => exact hn

/-- A borrower that is late does not park again, unless its time never runs out. -/
theorem seek_parks {late : Bool} {core : Core} (h : (seek policy p late core).next = .parked) :
    late = true → p.runsOut = false := by
  unfold seek at h
  split at h
  · cases h
  · split at h
    · split at h <;> cases h
    · split at h
      · cases h
      · exact whenFull_parks h

/-- A turn leaves less to do. -/
theorem effort_hold {phase : Phase} {turn : Core → Turn} (h : phase.move policy p = .hold turn)
    (core : Core) : (turn core).next.effort p (turn core).core < phase.effort p core := by
  have e := entry_of_hold h core
  by_cases hn : (turn core).next = .parked
  · obtain ⟨⟨late, again, rfl⟩, -, hcore, -⟩ := e.parks hn
    cases h
    rw [hn, hcore]
    have hl := seek_parks hn
    cases late with
    | false =>
      simp only [Phase.effort, Bool.false_eq_true, if_false]
      split <;> omega
    | true =>
      simp only [Phase.effort, hl rfl, Bool.false_eq_true, if_false, if_true]
      omega
  · exact e.effort_lt hn

/-- An answer leaves less to do. -/
theorem Sequel.effort_lt {phase next : Phase} {r : Request} {a : Except Failure r.Reply}
    (e : Sequel policy phase r a next) (core : Core) :
    next.effort p core < phase.effort p core := by
  cases e with
  | refused => exact (by decide : 2 < 5)
  | healthy =>
    show 3 < 6 * core.idle.length + 12
    omega
  | swept => exact effort_sweep ..
  | _ => exact Nat.lt_succ_self _

/-! ## Runs -/

/-- Where a call ends that runs alone: it is finished, or it waits for a connection for ever. -/
inductive Ends : Phase → Result → Prop where
  | finished {r} : Ends (.finished r) r
  | waiting : Ends .parked (.error .waitsForever)

/-- What every turn and every answer keeps holds at the end of a call that runs alone, and the call
does come to its end. -/
theorem run_ends {σ : Type} {around : Surroundings σ} (kept : Phase → Core → σ → Prop)
    (hold : ∀ {phase turn core w}, phase.move policy p = .hold turn → kept phase core w →
      kept (turn core).next (turn core).core (around.report (turn core).notices w))
    (ask : ∀ {phase r resume core w}, phase.move policy p = .ask r resume → kept phase core w →
      kept (resume (around.answer r w).1).1 core
        (around.report (resume (around.answer r w).1).2 (around.answer r w).2))
    (late : ∀ {core w}, kept .parked core w → kept (.seeking true true) core w)
    {phase : Phase} {core : Core} {w : σ} {fuel : Nat} (hf : phase.effort p core ≤ fuel)
    (hk : kept phase core w) :
    ∃ last, Ends last (phase.run around policy p fuel core w).1 ∧
      kept last (phase.run around policy p fuel core w).2.1
        (phase.run around policy p fuel core w).2.2 := by
  -- every move costs one unit of fuel and saves at least one of effort
  induction fuel generalizing phase core w with
  | zero => exact absurd (effort_pos phase core) (Nat.not_lt_of_le hf)
  | succ fuel ih =>
    cases hm : phase.move policy p with
    | stop r =>
      simp only [Phase.run, hm]
      cases phase <;> cases hm
      exact ⟨_, .finished, hk⟩
    | park =>
      simp only [Phase.run, hm]
      cases phase <;> cases hm
      cases hp : p.runsOut with
      | false =>
        simp only [Bool.false_eq_true, if_false]
        exact ⟨_, .waiting, hk⟩
      | true =>
        simp only [Phase.effort, hp, if_true] at hf
        simp only [if_true]
        exact ih (Nat.le_of_lt_succ hf) (late hk)
    | hold turn =>
      simp only [Phase.run, hm]
      exact ih (Nat.le_of_lt_succ (Nat.lt_of_lt_of_le (effort_hold hm core) hf)) (hold hm hk)
    | ask r resume =>
      simp only [Phase.run, hm]
      exact ih (Nat.le_of_lt_succ (Nat.lt_of_lt_of_le ((sequel_of_ask hm _).effort_lt core) hf))
        (ask hm hk)

/-! ## What one call does to the accounts -/

/-- The phases of borrowers, and those of other calls. A call that fails may be either. -/
def Phase.serves (borrower : Bool) : Phase → Prop
  | .finished (.ok got) => got.isSome = borrower
  | .finished (.error _) => True
  | .seeking .. | .parked | .withdrawing | .vetting _ | .dropping _ | .discarding _ | .opening
  | .forgoing _ | .enrolling _ | .refusing _ | .delivering .. | .announcing .. => borrower = true
  | .accepting _ | .checking _ | .settling .. | .retiring .. | .counting | .tallying _
  | .shutting | .sweeping .. => borrower = false

theorem sweep_serves (n : Nat) (cs : List Conn) : (sweep policy n cs).1.serves false := by
  cases cs <;> rfl

theorem Entry.serves {phase next : Phase} {core core' : Core} {wake : Wake} {borrower : Bool}
    (e : Entry policy phase core core' next wake) (h : phase.serves borrower) :
    next.serves borrower := by
  cases e with
  | reuse ho hi hn => rcases hn with rfl | rfl <;> exact h
  | full ho hi hr hn =>
    rcases hn with rfl | rfl | ⟨f, rfl⟩
    · exact h
    · exact h
    · trivial
  | accept hu hr hn => rcases hn with rfl | ⟨keep, shut, rfl⟩ <;> exact h
  | announce => exact h.symm
  | ignore | tally | shutAgain => exact h.symm
  | shut ho =>
    cases (h : borrower = false)
    exact sweep_serves ..
  | turnedAway | withdraw | forgo | forget => trivial
  | _ => exact h

theorem Entry.delivered_nil {phase next : Phase} {core core' : Core} {wake : Wake}
    (e : Entry policy phase core core' next wake) : phase.delivered = [] := by
  cases e <;> rfl

namespace Sequel

variable {phase next : Phase} {r : Request} {a : Except Failure r.Reply}

theorem serves {borrower : Bool} (e : Sequel policy phase r a next) (h : phase.serves borrower) :
    next.serves borrower := by
  cases e with
  | turnedAway => trivial
  | swept =>
    cases (h : borrower = false)
    exact sweep_serves ..
  | _ => exact h

/-- An answer does not change what a call has in hand, but for a connection just supplied. -/
theorem hands (e : Sequel policy phase r a next) :
    next.reserved = phase.reserved ∧ next.takenBack = phase.takenBack ∧
      next.minded = phase.minded ∧ next.claimed = phase.claimed ∧
      next.delivered = phase.delivered := by
  cases e with
  | swept =>
    rw [sweep_reserved, sweep_takenBack, sweep_minded, sweep_claimed, sweep_delivered]
    exact ⟨rfl, rfl, rfl, rfl, rfl⟩
  | _ => exact ⟨rfl, rfl, rfl, rfl, rfl⟩

/-- Only the supplier puts a connection into the hands of a call. -/
theorem unregistered (e : Sequel policy phase r a next) (hr : r ≠ .supply) :
    next.unregistered = [] := by
  cases e with
  | supplied => exact absurd rfl hr
  | swept => exact sweep_unregistered ..
  | _ => rfl

end Sequel

/-- Surroundings that supply only what is not known yet, and forget nothing. -/
structure Surroundings.Inventive {σ : Type} (around : Surroundings σ) (known : σ → Conn → Prop) :
    Prop where
  supply : ∀ {w c}, (around.answer .supply w).1 = .ok c →
    ¬known w c ∧ known (around.answer .supply w).2 c
  answer : ∀ {r w c}, known w c → known (around.answer r w).2 c
  report : ∀ {ns w c}, known w c → known (around.report ns w) c

/-- What holds while one call runs alone. It has in hand what is in use besides `base`. -/
structure Lone (borrower : Bool) (base : List Conn) (known : Conn → Prop) (phase : Phase)
    (core : Core) : Prop where
  serves : phase.serves borrower
  apart : Apart core phase
  known : ∀ d, 0 < core.idle.count d + core.inUse.count d + phase.unregistered.count d → known d
  creating : core.creating = phase.reserved
  returning : ∀ d, core.returning.count d = phase.takenBack.count d
  hands : ∀ d, core.inUse.count d =
    base.count d + phase.minded.count d + phase.claimed.count d + phase.delivered.count d

namespace Lone

variable {σ : Type} {around : Surroundings σ} {known : σ → Conn → Prop} {borrower : Bool}
  {base : List Conn} {phase : Phase} {core : Core} {w : σ}

theorem hold (hk : around.Inventive known) (hl : Lone borrower base (known w) phase core)
    {turn : Core → Turn} (hm : phase.move policy p = .hold turn) :
    Lone borrower base (known (around.report (turn core).notices w)) (turn core).next
      (turn core).core := by
  have e := entry_of_hold hm core
  have hu : ∀ d ∈ phase.minded, d ∈ core.inUse := by
    intro d hd
    have h1 := List.count_pos_iff.mpr hd
    have h2 := hl.hands d
    exact List.count_pos_iff.mp (by omega)
  have hc : ∀ d, d ∈ phase.claimed → d ∈ core.inUse ∧ d ∉ core.returning := by
    intro d hd
    have h1 := List.count_pos_iff.mpr hd
    have h2 := hl.hands d
    refine ⟨List.count_pos_iff.mp (by omega), List.count_eq_zero.mp ?_⟩
    rw [hl.returning]
    cases phase <;> first | rfl | cases hd
  refine ⟨e.serves hl.serves, ?_, ?_, ?_, ?_, ?_⟩
  · intro d
    exact Nat.le_trans (e.once d) (hl.apart d)
  · intro d hd
    exact hk.report (hl.known d (Nat.lt_of_lt_of_le hd (e.once d)))
  · have h1 := e.creating (Nat.le_of_eq hl.creating.symm)
    rw [hl.creating] at h1
    omega
  · intro d
    have h1 := hl.returning d
    have h2 := e.returning d (Nat.le_of_eq h1.symm)
    omega
  · intro d
    have h1 := hl.hands d
    have h2 := e.hands d hl.apart hu (hc d)
    rw [e.delivered_nil, List.count_nil] at h1
    omega

theorem ask (hk : around.Inventive known) (hl : Lone borrower base (known w) phase core)
    {r : Request} {resume : Except Failure r.Reply → Phase × List Notice}
    (hm : phase.move policy p = .ask r resume) :
    Lone borrower base
      (known (around.report (resume (around.answer r w).1).2 (around.answer r w).2))
      (resume (around.answer r w).1).1 core := by
  have e := sequel_of_ask hm (around.answer r w).1
  generalize (resume (around.answer r w).1).1 = next at e
  obtain ⟨h1, h2, h3, h4, h5⟩ := e.hands
  -- what the call gets from the supplier, if anything, was not known before
  have hnew : ∀ d, next.unregistered.count d = 0 ∨
      (core.idle.count d + core.inUse.count d = 0 ∧ known (around.answer r w).2 d ∧
        next.unregistered.count d ≤ 1) := by
    intro d
    by_cases hr : r = .supply
    · subst hr
      cases ha : (around.answer .supply w).1 with
      | error f =>
        rw [ha] at e
        cases e with
        | refused => exact .inl rfl
      | ok c =>
        rw [ha] at e
        cases e with
        | supplied =>
          by_cases hcd : c = d
          · subst hcd
            obtain ⟨hn, hc⟩ := hk.supply ha
            have hd := mt (hl.known c) hn
            refine .inr ⟨by omega, hc, ?_⟩
            exact Nat.le_of_eq (List.count_singleton_self ..)
          · exact .inl (List.count_eq_zero.mpr (by simpa [Phase.unregistered] using Ne.symm hcd))
    · rw [e.unregistered hr]
      exact .inl rfl
  refine ⟨e.serves hl.serves, ?_, ?_, ?_, ?_, ?_⟩
  · intro d
    have h6 := hl.apart d
    rcases hnew d with h7 | ⟨h7, -, h8⟩ <;> omega
  · intro d hd
    rcases hnew d with h7 | ⟨-, h7, -⟩
    · exact hk.report (hk.answer (hl.known d (by omega)))
    · exact hk.report h7
  · rw [h1]
    exact hl.creating
  · rw [h2]
    exact hl.returning
  · rw [h3, h4, h5]
    exact hl.hands

theorem late (hl : Lone borrower base (known w) .parked core) :
    Lone borrower base (known w) (.seeking true true) core :=
  ⟨hl.serves, hl.apart, hl.known, hl.creating, hl.returning, hl.hands⟩

end Lone

/-- A pool at rest: no call is in progress. -/
structure Rest (known : Conn → Prop) (core : Core) : Prop where
  apart : ∀ d, core.idle.count d + core.inUse.count d ≤ 1
  known : ∀ d, 0 < core.idle.count d + core.inUse.count d → known d
  creating : core.creating = 0
  returning : core.returning = []

namespace Rest

variable {σ : Type} {around : Surroundings σ} {known : σ → Conn → Prop} {core : Core} {w : σ}

/-- A call that has nothing in hand begins at rest. -/
theorem lone {known : Conn → Prop} (hr : Rest known core) (borrower : Bool) (base : List Conn)
    (phase : Phase) (hs : phase.serves borrower) (hp : phase.reserved = 0)
    (hu : phase.unregistered = []) (ht : phase.takenBack = [])
    (hh : ∀ d, core.inUse.count d =
      base.count d + phase.minded.count d + phase.claimed.count d + phase.delivered.count d) :
    Lone borrower base known phase core := by
  refine ⟨hs, ?_, ?_, hr.creating.trans hp.symm, ?_, hh⟩
  · intro d
    rw [hu]
    exact hr.apart d
  · intro d
    rw [hu]
    exact hr.known d
  · intro d
    rw [ht, hr.returning]

/-- A call that ends leaves the pool at rest again. -/
theorem of_lone {known : Conn → Prop} {borrower : Bool} {base : List Conn} {last : Phase}
    {r : Result} (he : Ends last r) (hl : Lone borrower base known last core) :
    Rest known core ∧ (Phase.finished r).serves borrower ∧
      ∀ d, core.inUse.count d = base.count d + (Phase.finished r).delivered.count d := by
  have hret : last.takenBack = [] → core.returning = [] := by
    intro ht
    refine List.eq_nil_iff_forall_not_mem.mpr fun d hd => ?_
    have h1 := List.count_pos_iff.mpr hd
    rw [hl.returning, ht] at h1
    cases h1
  cases he with
  | finished => exact ⟨⟨hl.apart, hl.known, hl.creating, hret rfl⟩, hl.serves, hl.hands⟩
  | waiting => exact ⟨⟨hl.apart, hl.known, hl.creating, hret rfl⟩, trivial, hl.hands⟩

/-- A call runs from rest to rest, and what is in use after it is what was in use besides the
connections that it had in hand, and what it delivers. -/
theorem run (hk : around.Inventive known) {borrower : Bool} {base : List Conn} {phase : Phase}
    (hl : Lone borrower base (known w) phase core) {fuel : Nat}
    (hf : phase.effort p core ≤ fuel) {r : Result} {core' : Core} {w' : σ}
    (ho : phase.run around policy p fuel core w = (r, core', w')) :
    Rest (known w') core' ∧ (Phase.finished r).serves borrower ∧
      ∀ d, core'.inUse.count d = base.count d + (Phase.finished r).delivered.count d := by
  obtain ⟨last, he, hl⟩ := run_ends (fun phase core w => Lone borrower base (known w) phase core)
    (fun hm h => h.hold hk hm) (fun hm h => h.ask hk hm) (fun h => h.late) hf hl
  rw [ho] at he hl
  exact of_lone he hl

/-- Borrowing from a pool at rest ends. It delivers a connection that was not in use, or fails and
leaves in use what was in use. -/
theorem borrow (hk : around.Inventive known) (hr : Rest (known w) core) {timeout : Option Timeout}
    {r : Result} {core' : Core} {w' : σ}
    (ho : Pool.borrow around policy timeout core w = (r, core', w')) :
    Rest (known w') core' ∧
      ((∃ c, r = .ok (some c) ∧ ∀ d, core'.inUse.count d = core.inUse.count d + [c].count d) ∨
        ∃ f, r = .error f ∧ ∀ d, core'.inUse.count d = core.inUse.count d) := by
  have hstay : ∀ f, (r, core', w') = (.error f, core, w) → Rest (known w') core' ∧
      ((∃ c, r = .ok (some c) ∧ ∀ d, core'.inUse.count d = core.inUse.count d + [c].count d) ∨
        ∃ f, r = .error f ∧ ∀ d, core'.inUse.count d = core.inUse.count d) := by
    intro f h
    cases h
    exact ⟨hr, .inr ⟨f, rfl, fun _ => rfl⟩⟩
  unfold Pool.borrow at ho
  split at ho
  · exact hstay _ ho.symm
  · have hb : (Phase.seeking false false).effort ‹Patience› core ≤ core.callBound := by
      simp only [Phase.effort, Core.callBound, Bool.false_eq_true, if_false]
      omega
    have hl := hr.lone true core.inUse (.seeking false false) rfl rfl rfl rfl fun _ => rfl
    obtain ⟨h1, h2, h3⟩ := run hk hl hb ho
    refine ⟨h1, ?_⟩
    cases r with
    | error f => exact .inr ⟨f, rfl, h3⟩
    | ok got =>
      cases got with
      | none => cases h2
      | some c => exact .inl ⟨c, rfl, h3⟩

/-- A connection in use is taken back: it is in use no more, and everything else in use still is. -/
theorem giveBack (hk : around.Inventive known) (hr : Rest (known w) core) {c : Conn}
    (hc : c ∈ core.inUse) {r : Result} {core' : Core} {w' : σ}
    (ho : Pool.giveBack around policy c core w = (r, core', w')) :
    Rest (known w') core' ∧ ∀ d, core'.inUse.count d + [c].count d = core.inUse.count d := by
  have hb : (Phase.accepting c).effort .endless core ≤ core.callBound := by
    simp only [Phase.effort, Core.callBound]
    omega
  have hl := hr.lone false (core.inUse.erase c) (.accepting c) rfl rfl rfl rfl
    fun d => (count_erase_add hc d).symm
  obtain ⟨h1, h2, h3⟩ := run hk hl hb ho
  refine ⟨h1, fun d => ?_⟩
  have hn : (Phase.finished r).delivered.count d = 0 := by
    cases r with
    | error f => rfl
    | ok got =>
      cases got with
      | none => rfl
      | some c => cases h2
  rw [h3, hn]
  exact count_erase_add hc d

/-- Closing a pool leaves in use what is in use. -/
theorem close (hk : around.Inventive known) (hr : Rest (known w) core) {r : Result} {core' : Core}
    {w' : σ} (ho : Pool.close around policy core w = (r, core', w')) :
    Rest (known w') core' ∧ ∀ d, core'.inUse.count d = core.inUse.count d := by
  have hb : Phase.shutting.effort .endless core ≤ core.callBound := by
    simp only [Phase.effort, Core.callBound]
    omega
  have hl := hr.lone false core.inUse .shutting rfl rfl rfl rfl fun _ => rfl
  obtain ⟨h1, h2, h3⟩ := run hk hl hb ho
  refine ⟨h1, fun d => (h3 d).trans ?_⟩
  cases r with
  | error f => rfl
  | ok got =>
    cases got with
    | none => rfl
    | some c => cases h2

theorem stock {policy : Policy} (hk : around.Inventive known) {n : Nat} {idle opened : List Conn}
    {w' : σ} (hn : idle.Nodup) (hi : ∀ d ∈ idle, known w d)
    (ho : Pool.stock around policy n idle w = (.ok opened, w')) :
    opened.Nodup ∧ ∀ d ∈ opened, known w' d := by
  induction n generalizing idle w with
  | zero =>
    cases ho
    exact ⟨hn, hi⟩
  | succ n ih =>
    simp only [Pool.stock] at ho
    split at ho
    · rename_i c w₁ ha
      obtain ⟨h1, h2⟩ := hk.supply (congrArg Prod.fst ha)
      rw [ha] at h2
      refine ih (List.nodup_cons.mpr ⟨fun hc => h1 (hi c hc), hn⟩) ?_ ho
      intro d hd
      rcases List.mem_cons.mp hd with rfl | hd
      · exact hk.report h2
      · have h3 : known (around.answer .supply w).2 d := hk.answer (hi d hd)
        rw [ha] at h3
        exact hk.report h3
    · cases ho

/-- A pool is at rest when it was just opened, with nothing in use. -/
theorem opening (hk : around.Inventive known) {w' : σ}
    (ho : openPool around policy w = (.ok core, w')) : Rest (known w') core ∧ core.inUse = [] := by
  cases opening_of_openPool ho with
  | opened hs =>
    obtain ⟨h1, h2⟩ := stock hk List.nodup_nil (List.forall_mem_nil _) hs
    refine ⟨⟨fun d => List.nodup_iff_count.mp h1 d, fun d hd => ?_, rfl, rfl⟩, rfl⟩
    exact hk.report (h2 d (List.count_pos_iff.mp hd))

end Rest

/-- What is not in use is not taken back: nothing changes and nothing is asked of anyone. -/
theorem giveBack_ignored {σ : Type} (around : Surroundings σ) (policy : Policy) {c : Conn}
    {core : Core} (hc : c ∉ core.inUse) (w : σ) : giveBack around policy c core w =
      (.ok none, core, around.report [.returnIgnored policy.name] w) := by
  have hm : accept policy c core = ⟨core, .finished (.ok none), .nobody,
      [.returnIgnored policy.name]⟩ := by
    simp [accept, hc]
  show (Phase.accepting c).run around policy .endless (6 * core.idle.length + 12) core w = _
  simp only [Phase.run, Phase.move, hm]

end RedisGateway.Pool
