import RedisGateway.Proofs.Pool.Solo

/-!
A borrower that is alone. As long as new connections are to be had, an open pool that has nothing in
use and may hold a connection at all always has one for it, whatever became of connections before
and whatever their checks say now.
-/

namespace RedisGateway.Pool

/-- Surroundings that supply a connection whenever something holds, which they keep. -/
structure Surroundings.Generous {σ : Type} (around : Surroundings σ) (good : σ → Prop) : Prop where
  supply : ∀ {w}, good w → ∃ c, (around.answer .supply w).1 = .ok c
  answer : ∀ {r w}, good w → good (around.answer r w).2
  report : ∀ {ns w}, good w → good (around.report ns w)

variable {policy : Policy} {p : Patience} {σ : Type} {around : Surroundings σ}

/-! ## Open pools -/

/-- Only a call that closes the pool closes it. -/
theorem Entry.stays_open {phase next : Phase} {core core' : Core} {wake : Wake}
    (e : Entry policy phase core core' next wake) (hp : phase ≠ .shutting) :
    core'.closed = core.closed ∧ next ≠ .shutting := by
  cases e with
  | reuse ho hi hn => rcases hn with rfl | rfl <;> exact ⟨rfl, nofun⟩
  | full ho hi hr hn => rcases hn with rfl | rfl | ⟨f, rfl⟩ <;> exact ⟨rfl, nofun⟩
  | accept hu hr hn => rcases hn with rfl | ⟨keep, shut, rfl⟩ <;> exact ⟨rfl, nofun⟩
  | shutAgain | shut => exact absurd rfl hp
  | _ => exact ⟨rfl, nofun⟩

theorem Sequel.stays_open {phase next : Phase} {r : Request} {a : Except Failure r.Reply}
    (e : Sequel policy phase r a next) : next ≠ .shutting := by
  cases e with
  | @swept c rest n => cases rest <;> nofun
  | _ => nofun

/-- A call that does not close the pool leaves it open, and its surroundings as generous as they
were. -/
theorem run_stays_open {good : σ → Prop} (hg : around.Generous good) {phase : Phase}
    (hp : phase ≠ .shutting) (fuel : Nat) (core : Core) {w : σ} (hw : good w) :
    (phase.run around policy p fuel core w).2.1.closed = core.closed ∧
      good (phase.run around policy p fuel core w).2.2 := by
  induction fuel generalizing phase core w with
  | zero => exact ⟨rfl, hw⟩
  | succ fuel ih =>
    cases hm : phase.move policy p with
    | stop r =>
      simp only [Phase.run, hm]
      exact ⟨trivial, hw⟩
    | park =>
      simp only [Phase.run, hm]
      split
      · exact @ih (.seeking true true) (by simp) core w hw
      · exact ⟨rfl, hw⟩
    | hold turn =>
      simp only [Phase.run, hm]
      obtain ⟨hc, hn⟩ := (entry_of_hold hm core).stays_open hp
      obtain ⟨h1, h2⟩ := ih hn (turn core).core (hg.report hw)
      exact ⟨h1.trans hc, h2⟩
    | ask r resume =>
      simp only [Phase.run, hm]
      exact ih (sequel_of_ask hm _).stays_open core (hg.report (hg.answer hw))

/-! ## Borrowers that nothing stands in the way of -/

/-- The phases of a borrower that comes to a connection in the end. -/
def Phase.Unhindered : Phase → Prop
  | .seeking .. | .vetting _ | .dropping _ | .discarding _ | .opening | .enrolling _
  | .delivering .. | .announcing .. | .finished (.ok _) => True
  | _ => False

/-- With nothing in hand of anyone there is room for a connection. -/
theorem hasRoom_of_empty {core : Core} {limits : Limits} (ht : limits.maxTotal ≠ 0)
    (hi : core.idle = []) (hu : core.inUse = []) (hc : core.creating = 0) :
    core.hasRoom limits = true := by
  have hz : core.total = 0 := by simp [Core.total, hi, hu, hc]
  have hn : 0 ≤ limits.maxTotal ∨ limits.maxTotal < 0 := by omega
  rw [hasRoom_iff, hz]
  omega

/-- A turn of a lone borrower at an open pool takes it on. -/
theorem Entry.unhindered {phase next : Phase} {core core' : Core} {wake : Wake}
    {known : Conn → Prop} (e : Entry policy phase core core' next wake)
    (hl : Lone true [] known phase core) (ho : core.closed = false)
    (ht : policy.limits.maxTotal ≠ 0) (hp : phase.Unhindered) : next.Unhindered := by
  cases e with
  | turnedAway hc => exact absurd (ho.symm.trans hc) nofun
  | refuse hc => exact absurd (ho.symm.trans hc) nofun
  | full _ hi hr =>
    have hu : core.inUse = [] := List.eq_nil_iff_forall_not_mem.mpr fun d hd => by
      have h1 := List.count_pos_iff.mpr hd
      rw [hl.hands d] at h1
      cases h1
    rw [hasRoom_of_empty ht hi hu hl.creating] at hr
    cases hr
  | reuse _ _ hn => rcases hn with rfl | rfl <;> trivial
  | reserve | drop | enrol | deliver | announce => trivial
  | _ => exact hp.elim

/-- So does an answer, if the supplier has a connection. -/
theorem Sequel.unhindered {phase next : Phase} {r : Request} {a : Except Failure r.Reply}
    (e : Sequel policy phase r a next) (ha : r = .supply → ∃ c, a.toOption = some c)
    (hp : phase.Unhindered) : next.Unhindered := by
  cases e with
  | refused =>
    obtain ⟨c, hc⟩ := ha rfl
    cases hc
  | supplied | healthy | stale | discarded => trivial
  | _ => exact hp.elim

namespace Rest

variable {known : σ → Conn → Prop} {good : σ → Prop} {core : Core} {w : σ}

/-- A lone borrower at an open pool with nothing in use gets a connection. -/
theorem borrow_serves (hk : around.Inventive known) (hg : around.Generous good)
    (hr : Rest (known w) core) (hw : good w) (hu : core.inUse = []) (ho : core.closed = false)
    (ht : policy.limits.maxTotal ≠ 0) (hp : policy.limits.patience none = .ok p) :
    ∃ c, (Pool.borrow around policy none core w).1 = .ok (some c) := by
  have hb : (Phase.seeking false false).effort p core ≤ core.callBound := by
    simp only [Phase.effort, Core.callBound, Bool.false_eq_true, if_false]
    omega
  have hl : Lone true [] (known w) (.seeking false false) core := by
    refine hr.lone true [] (.seeking false false) rfl rfl rfl rfl fun d => ?_
    rw [hu]
    rfl
  obtain ⟨last, he, hl, hlast, -, -⟩ := @run_ends policy p σ around
    (fun phase core w => Lone true [] (known w) phase core ∧ phase.Unhindered ∧
      core.closed = false ∧ good w)
    (fun {phase _ core _} hm held => by
      obtain ⟨hl, hp, ho, hw⟩ := held
      have e := entry_of_hold hm core
      have hns : phase ≠ .shutting := fun h => by rw [h] at hp; exact hp
      exact ⟨hl.hold hk hm, e.unhindered hl ho ht hp, (e.stays_open hns).1.trans ho,
        hg.report hw⟩)
    (fun {phase r _ core w} hm held => by
      obtain ⟨hl, hp, ho, hw⟩ := held
      refine ⟨hl.ask hk hm, (sequel_of_ask hm _).unhindered (fun hr => ?_) hp, ho,
        hg.report (hg.answer hw)⟩
      subst hr
      obtain ⟨c, hc⟩ := hg.supply hw
      exact ⟨c, by rw [hc]; rfl⟩)
    (fun held => held.2.1.elim) _ _ w _ hb ⟨hl, trivial, ho, hw⟩
  have hrun : Pool.borrow around policy none core w =
      (Phase.seeking false false).run around policy p core.callBound core w := by
    simp only [Pool.borrow, hp]
  rw [hrun]
  generalize ((Phase.seeking false false).run around policy p core.callBound core w).1 = r at he
  cases he with
  | waiting => exact hlast.elim
  | finished =>
    cases r with
    | error f => exact hlast.elim
    | ok got =>
      cases got with
      | none => cases hl.serves
      | some c => exact ⟨c, rfl⟩

/-- What it borrows is all that is in use then, and the pool is open and at rest as before. -/
theorem borrow_lends (hk : around.Inventive known) (hg : around.Generous good)
    (hr : Rest (known w) core) (hw : good w) (hu : core.inUse = []) (ho : core.closed = false)
    (ht : policy.limits.maxTotal ≠ 0) (hp : policy.limits.patience none = .ok p) :
    ∃ c core' w', Pool.borrow around policy none core w = (.ok (some c), core', w') ∧
      Rest (known w') core' ∧ (∀ d, core'.inUse.count d = [c].count d) ∧ core'.closed = false ∧
        good w' := by
  obtain ⟨c, hc⟩ := hr.borrow_serves hk hg hw hu ho ht hp
  obtain ⟨got, core', w', hb⟩ : ∃ got core' w', Pool.borrow around policy none core w =
      (got, core', w') := ⟨_, _, _, rfl⟩
  have hopen := @run_stays_open policy p _ around good hg (.seeking false false) nofun
    core.callBound core w hw
  have hrun := hb
  simp only [Pool.borrow, hp] at hrun
  rw [hrun] at hopen
  obtain ⟨hr', hin⟩ := hr.borrow hk hb
  rw [hb] at hc
  cases (hc : got = _)
  refine ⟨c, core', w', hb, hr', fun d => ?_, hopen.1.trans ho, hopen.2⟩
  rcases hin with ⟨_, hsome, hin⟩ | ⟨_, hfailed, -⟩
  · cases hsome
    rw [hin d, hu, List.count_nil, Nat.zero_add]
  · cases hfailed

end Rest
end RedisGateway.Pool
