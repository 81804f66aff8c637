import RedisGateway.Proofs.Pool.Script
import RedisGateway.Proofs.Pool.Tally

/-!
The bounds of a pool, for callers of any kind: connections in all, idle connections, no connection
twice among the accounts, and nothing idle once the pool is closed.
-/

namespace RedisGateway.Pool

theorem hasRoom_iff {core : Core} {limits : Limits} :
    core.hasRoom limits = true ↔ limits.maxTotal < 0 ∨ (core.total : Int) < limits.maxTotal := by
  simp [Core.hasRoom, Limits.allowsMore]

theorem keepsMore_iff {limits : Limits} {n : Nat} :
    limits.keepsMore n = true ↔ limits.maxIdle < 0 ∨ (n : Int) < limits.maxIdle := by
  simp [Limits.keepsMore]

theorem length_insert_le (c : Conn) (l : List Conn) : (l.insert c).length ≤ l.length + 1 := by
  rw [List.length_insert]
  split <;> omega

namespace Entry

variable {policy : Policy} {phase next : Phase} {core core' : Core} {wake : Wake}

/-- Reserved places are counted exactly. -/
theorem creating (e : Entry policy phase core core' next wake)
    (h : phase.reserved ≤ core.creating) :
    core'.creating + phase.reserved = core.creating + next.reserved := by
  cases e with
  | reuse ho hi hn => rcases hn with rfl | rfl <;> rfl
  | full ho hi hr hn => rcases hn with rfl | rfl | ⟨f, rfl⟩ <;> rfl
  | accept hu hr hn => rcases hn with rfl | ⟨keep, shut, rfl⟩ <;> rfl
  | shut ho =>
    rw [sweep_reserved]
    rfl
  | reserve => rfl
  | forgo | refuse | enrol =>
    simp only [Phase.reserved] at h ⊢
    omega
  | _ => rfl

/-- A turn puts no connection into a second place among the accounts. -/
theorem once (e : Entry policy phase core core' next wake) (c : Conn) :
    core'.idle.count c + core'.inUse.count c + next.unregistered.count c ≤
      core.idle.count c + core.inUse.count c + phase.unregistered.count c := by
  cases e with
  | @reuse _ _ _ d rest _ ho hi hn =>
    have hc := count_insert_le c d core.inUse
    rw [hi, count_cons_add]
    rcases hn with rfl | rfl <;> simp only [Phase.unregistered, List.count_nil] <;> omega
  | full ho hi hr hn =>
    rcases hn with rfl | rfl | ⟨f, rfl⟩ <;> exact Nat.le_refl _
  | @drop d =>
    have hc := (List.erase_sublist (a := d) (l := core.inUse)).count_le c
    simp only [Phase.unregistered, List.count_nil]
    omega
  | @enrol d _ ho =>
    have hc := count_insert_le c d core.inUse
    simp only [Phase.unregistered, List.count_nil]
    omega
  | accept hu hr hn => rcases hn with rfl | ⟨keep, shut, rfl⟩ <;> exact Nat.le_refl _
  | @keep d _ _ _ hu ho hk =>
    have hc := count_erase_add hu c
    rw [count_cons_add]
    simp only [Phase.unregistered, List.count_nil]
    omega
  | @retire d _ _ _ hu =>
    have hc := count_erase_add hu c
    simp only [Phase.unregistered, List.count_nil]
    omega
  | shut ho =>
    rw [sweep_unregistered]
    simp only [List.count_nil]
    omega
  | refuse =>
    simp only [Phase.unregistered, List.count_nil]
    omega
  | _ => exact Nat.le_refl _

/-- A turn stays within the limit of connections in all. -/
theorem total (e : Entry policy phase core core' next wake) (h : phase.reserved ≤ core.creating)
    (hm : 0 ≤ policy.limits.maxTotal) (ht : (core.total : Int) ≤ policy.limits.maxTotal) :
    (core'.total : Int) ≤ policy.limits.maxTotal := by
  cases e with
  | @reuse _ _ _ d rest _ ho hi hn =>
    have hl := length_insert_le d core.inUse
    rw [Core.total, hi, List.length_cons] at ht
    simp only [Core.total]
    omega
  | reserve ho hi hr =>
    have hl := hasRoom_iff.mp hr
    simp only [Core.total] at hl ⊢
    omega
  | @drop d =>
    have hl := List.length_erase_le (a := d) (l := core.inUse)
    simp only [Core.total] at ht ⊢
    omega
  | @enrol d _ ho =>
    have hl := length_insert_le d core.inUse
    simp only [Core.total, Phase.reserved] at h ht ⊢
    omega
  | @keep d _ _ _ hu ho hk =>
    have hl := List.length_erase_of_mem hu
    have hp := List.length_pos_of_mem hu
    simp only [Core.total, List.length_cons] at ht ⊢
    omega
  | @retire d _ _ _ hu =>
    have hl := List.length_erase_le (a := d) (l := core.inUse)
    simp only [Core.total] at ht ⊢
    omega
  | forgo | refuse | shut =>
    simp only [Core.total, List.length_nil] at ht ⊢
    omega
  | _ => exact ht

/-- A turn stays within the limit of idle connections. -/
theorem idle (e : Entry policy phase core core' next wake) (hm : 0 ≤ policy.limits.maxIdle)
    (hi : (core.idle.length : Int) ≤ policy.limits.maxIdle) :
    (core'.idle.length : Int) ≤ policy.limits.maxIdle := by
  cases e with
  | reuse ho hc hn =>
    rw [hc, List.length_cons] at hi
    simp only
    omega
  | keep hu ho hk =>
    have hl := keepsMore_iff.mp hk
    simp only [List.length_cons]
    omega
  | shut ho => exact hm
  | _ => exact hi

/-- No turn opens a closed pool again. -/
theorem stays_closed (e : Entry policy phase core core' next wake) (h : core.closed = true) :
    core'.closed = true := by
  cases e with
  | shut ho => rfl
  | _ => exact h

/-- A turn leaves nothing idle in a closed pool. -/
theorem shut_idle (e : Entry policy phase core core' next wake)
    (h : core.closed = true → core.idle = []) : core'.closed = true → core'.idle = [] := by
  intro hc
  cases e with
  | reuse ho hi hn => exact absurd (hc : core.closed = true) (by simp [ho])
  | keep hu ho hk => exact absurd (hc : core.closed = true) (by simp [ho])
  | shut ho => rfl
  | _ => exact h hc

end Entry

namespace TrackedSystem

/-- What holds of the accounts whatever callers do: reserved places are counted, no connection is
in two places among the accounts or on its way there, and the limits are kept. -/
structure Sound (limits : Limits) (s : TrackedSystem) : Prop where
  places : s.core.creating = s.system.tally Phase.reserved
  once : ∀ c, s.core.idle.count c + s.core.inUse.count c + s.held Phase.unregistered c ≤
    s.opened.count c
  novel : s.opened.Nodup
  total : 0 ≤ limits.maxTotal → (s.core.total : Int) ≤ limits.maxTotal
  idle : 0 ≤ limits.maxIdle → (s.core.idle.length : Int) ≤ limits.maxIdle
  shut : s.core.closed = true → s.core.idle = []

theorem Sound.opening {policy : Policy} {s : TrackedSystem} (hv : policy.limits.Valid)
    (h : JustOpened policy s) : Sound policy.limits s := by
  obtain ⟨idle, hn, hl, rfl⟩ := h.shape
  obtain ⟨h0, hc⟩ := hv
  have hb : (0 ≤ policy.limits.maxIdle → policy.limits.minIdle ≤ policy.limits.maxIdle) ∧
      (0 ≤ policy.limits.maxTotal → policy.limits.minIdle ≤ policy.limits.maxTotal) := by
    simp only [Limits.contradiction?] at hc
    split at hc
    · cases hc
    · split at hc
      · cases hc
      · omega
  refine ⟨rfl, fun c => Nat.le_of_eq rfl, hn, fun ht => ?_, fun hi => ?_, nofun⟩
  · have := hb.2 ht
    simp only [Core.total, List.length_nil]
    omega
  · have := hb.1 hi
    simp only
    omega

section
variable {policy : Policy} {s t : TrackedSystem} {h : Happening}

theorem places_step (hp : s.core.creating = s.system.tally Phase.reserved)
    (st : Step policy s h t) : t.core.creating = t.system.tally Phase.reserved := by
  cases st with
  | borrow | giveBack | offer | close => exact hp.trans (System.tally_start_same _ _ rfl).symm
  | turn hm =>
    obtain ⟨phase, next, wake, e, -, ⟨hle, ht⟩, -⟩ := turn_held hm
    have := e.creating (hp ▸ hle)
    omega
  | supplied hm => exact hp.trans (supplied_reserved hm _).symm
  | refused hm => exact hp.trans (supplied_reserved hm _).symm
  | pinged hm => exact hp.trans (pinged_tally hm _ rfl rfl fun _ => rfl).symm
  | closed hm =>
    exact hp.trans (closed_tally (n := 0) hm _ rfl (fun _ => rfl) (fun _ => rfl)
      fun _ _ => sweep_reserved ..).symm
  | lapse => exact hp.trans (System.tally_expire _ _ steady_reserved).symm

theorem once_step (hs : Sound policy.limits s) (st : Step policy s h t) (c : Conn) :
    t.core.idle.count c + t.core.inUse.count c + t.held Phase.unregistered c ≤
      t.opened.count c := by
  have hp := hs.once c
  -- all but turns and new connections leave the accounts and the unregistered connections alone
  have keep : ∀ u : TrackedSystem, u.core = s.core → u.opened = s.opened →
      u.held Phase.unregistered c = s.held Phase.unregistered c →
      u.core.idle.count c + u.core.inUse.count c + u.held Phase.unregistered c ≤
        u.opened.count c := by
    intro u h1 h2 h3
    rw [h1, h2, h3]
    exact hp
  cases st with
  | borrow | giveBack | offer | close => exact keep _ rfl rfl (System.tally_start_same _ _ rfl)
  | turn hm =>
    obtain ⟨phase, next, wake, e, -, -, ht⟩ := turn_held hm
    have h1 := (ht _ steady_unregistered c).2
    have h2 := e.once c
    show _ ≤ s.opened.count c
    omega
  | @supplied i d resume hm =>
    have h1 : (s.goOn i (resume (.ok d)).1).held Phase.unregistered c =
      s.held Phase.unregistered c + [d].count c := supplied_held hm d Phase.unregistered c
    show s.core.idle.count c + s.core.inUse.count c +
      (s.goOn i (resume (.ok d)).1).held Phase.unregistered c ≤ (d :: s.opened).count c
    rw [h1, count_cons_add c d s.opened]
    omega
  | refused hm =>
    exact keep _ rfl rfl (Nat.add_right_cancel (refused_held hm _ Phase.unregistered c))
  | pinged hm => exact keep _ rfl rfl (pinged_tally hm _ rfl rfl fun _ => rfl)
  | closed hm =>
    exact keep _ rfl rfl (closed_tally (n := 0) (f := fun phase => phase.unregistered.count c) hm _
      rfl (fun _ => rfl) (fun _ => rfl) fun _ _ => congrArg (List.count c) (sweep_unregistered ..))
  | lapse => exact keep _ rfl rfl (System.tally_expire _ _ (steady_unregistered.count c))

theorem Sound.step (hs : Sound policy.limits s) (hn : Novel s h) (st : Step policy s h t) :
    Sound policy.limits t := by
  refine ⟨places_step hs.places st, once_step hs st, ?_, ?_, ?_, ?_⟩
  · cases st with
    | supplied => exact List.nodup_cons.mpr ⟨hn.1, hs.novel⟩
    | _ => exact hs.novel
  · intro hm
    cases st with
    | turn hmove =>
      obtain ⟨phase, next, wake, e, -, ⟨hle, -⟩, -⟩ := turn_held hmove
      exact e.total (hs.places ▸ hle) hm (hs.total hm)
    | _ => exact hs.total hm
  · intro hm
    cases st with
    | turn hmove =>
      obtain ⟨phase, next, wake, e, -⟩ := turn_held hmove
      exact e.idle hm (hs.idle hm)
    | _ => exact hs.idle hm
  · cases st with
    | turn hmove =>
      obtain ⟨phase, next, wake, e, -⟩ := turn_held hmove
      exact e.shut_idle hs.shut
    | _ => exact hs.shut

theorem closed_step (st : Step policy s h t) (hc : s.core.closed = true) :
    t.core.closed = true := by
  cases st with
  | turn hmove =>
    obtain ⟨phase, next, wake, e, -⟩ := turn_held hmove
    exact e.stays_closed hc
  | _ => exact hc

end

/-- No connection is in the accounts twice. -/
theorem Sound.apart {limits : Limits} {s : TrackedSystem} (hs : Sound limits s) (c : Conn) :
    s.core.idle.count c + s.core.inUse.count c ≤ 1 := by
  have h1 := hs.once c
  have h2 := List.nodup_iff_count.mp hs.novel c
  omega

theorem Sound.idle_not_inUse {limits : Limits} {s : TrackedSystem} (hs : Sound limits s) {c : Conn}
    (hi : c ∈ s.core.idle) : c ∉ s.core.inUse := by
  intro hu
  have h1 := hs.apart c
  have h2 := List.count_pos_iff.mpr hi
  have h3 := List.count_pos_iff.mpr hu
  omega

/-- What is in use was opened. -/
theorem Sound.opened_of_inUse {limits : Limits} {s : TrackedSystem} (hs : Sound limits s) {c : Conn}
    (hu : c ∈ s.core.inUse) : c ∈ s.opened := by
  have h1 := hs.once c
  have h2 := List.count_pos_iff.mpr hu
  exact List.count_pos_iff.mp (by omega)

theorem Sound.leads {policy : Policy} {rule : Rule} {s t : TrackedSystem}
    (hr : ∀ s h, rule s h → Novel s h) (hs : Sound policy.limits s)
    (h : Leads policy rule s t) : Sound policy.limits t := by
  induction h with
  | refl => exact hs
  | step _ ht st ih => exact ih.step (hr _ _ ht) st

theorem Leads.closed {policy : Policy} {rule : Rule} {s t : TrackedSystem}
    (h : Leads policy rule s t) (hc : s.core.closed = true) : t.core.closed = true := by
  induction h with
  | refl => exact hc
  | step _ _ st ih => exact closed_step st ih

theorem Reachable.sound {policy : Policy} {rule : Rule} {s : TrackedSystem}
    (hv : policy.limits.Valid) (hr : ∀ s h, rule s h → Novel s h)
    (h : Reachable policy rule s) : Sound policy.limits s := by
  obtain ⟨s₀, h₀, hs⟩ := h
  exact (Sound.opening hv h₀).leads hr hs

/-- The bounds of a pool hold in every state that callers of any kind can bring about, however their
calls interleave and whatever the supplier and the connections answer: the limit of connections in
all, the limit of idle connections, no idle connection twice or also in use, and nothing idle from
the closing of the pool on. -/
theorem bounds_hold {policy : Policy} (hv : policy.limits.Valid) {s : TrackedSystem}
    (h : Reachable policy Novel s) :
    (0 ≤ policy.limits.maxTotal →
      ((s.core.idle.length + s.core.inUse.length + s.core.creating : Nat) : Int) ≤
        policy.limits.maxTotal) ∧
    (0 ≤ policy.limits.maxIdle → (s.core.idle.length : Int) ≤ policy.limits.maxIdle) ∧
    s.core.idle.Nodup ∧ (∀ c ∈ s.core.idle, c ∉ s.core.inUse) ∧
    (s.core.closed = true → ∀ t, Leads policy Novel s t →
      t.core.closed = true ∧ t.core.idle = []) := by
  have hs := h.sound hv fun _ _ hn => hn
  refine ⟨hs.total, hs.idle, ?_, fun c => hs.idle_not_inUse, ?_⟩
  · refine List.nodup_iff_count.mpr fun c => ?_
    have := hs.apart c
    omega
  · intro hc t ht
    have hct := ht.closed hc
    exact ⟨hct, (hs.leads (fun _ _ hn => hn) ht).shut hct⟩

/-- The only connection is given back, and offered once more while it is checked and once again
after that; then one caller borrows it and another one waits. -/
theorem bounds_hold_of_single : Policy.single.limits.Valid ∧ ∃ s, Reachable .single Novel s ∧
    s.core.inUse = [0] ∧ (0 ≤ Policy.single.limits.maxTotal →
      ((s.core.idle.length + s.core.inUse.length + s.core.creating : Nat) : Int) ≤
        Policy.single.limits.maxTotal) ∧
    (0 ≤ Policy.single.limits.maxIdle → (s.core.idle.length : Int) ≤ Policy.single.limits.maxIdle) ∧
    s.core.idle.Nodup ∧ (∀ c ∈ s.core.idle, c ∉ s.core.inUse) ∧
    (s.core.closed = true → ∀ t, Leads .single Novel s t →
      t.core.closed = true ∧ t.core.idle = []) := by
  have hv : Policy.single.limits.Valid := by decide
  obtain ⟨s, hs, hu⟩ := reachable_of_play Novel single_justOpened
    [.borrow none, .turn 0, .turn 0, .turn 0, .giveBack (0, 0), .turn 1, .offer 0,
      .turn 2, .pinged 1 (.ok (.flag true)), .turn 1, .offer 0, .turn 3, .borrow none, .turn 4,
      .borrow none, .turn 5]
    (fun s => s.core.inUse == [0]) (by decide)
  exact ⟨hv, s, hs, by simpa using hu, bounds_hold hv hs⟩

end TrackedSystem
end RedisGateway.Pool
