import RedisGateway.Proofs.Pool.Course

/-!
How borrowing ends. A borrower gets a connection or is told that the pool is exhausted, that no
connection could be opened or that the pool is closed, as long as its wait can be reckoned with; a
wait beyond the binary64 values, or one that is longer than anyone can wait, ends otherwise.
-/

namespace RedisGateway.Pool

/-! ## The patience of a call -/

namespace System

variable {s : System} {i j : Nat} {p : Patience} {q : Phase}

theorem patience?_start_of_some (hj : s.patience? j = some p) (p' : Patience) (phase : Phase) :
    (s.start p' phase).patience? j = some p := by
  obtain ⟨t, ht, -⟩ := Option.map_eq_some_iff.mp hj
  rw [patience?_start, if_neg (Nat.ne_of_lt (List.getElem?_eq_some_iff.mp ht).1)]
  exact hj

/-- A thread is known by its patience and its phase. -/
theorem thread_of (hp : s.patience? i = some p) (hq : s.phase? i = some q) :
    s.threads[i]? = some ⟨p, q⟩ := by
  obtain ⟨t, ht, rfl⟩ := Option.map_eq_some_iff.mp hp
  simp only [phase?, ht, Option.map_some, Option.some.injEq] at hq
  rw [ht, ← hq]

end System

namespace TrackedSystem

variable {policy : Policy} {rule : Rule} {s t : TrackedSystem} {h : Happening} {i : Nat}
  {p : Patience}
  {q : Phase}

/-- A call is as patient as it was when it started. -/
theorem Step.patience (st : Step policy s h t) (hi : s.system.patience? i = some p) :
    t.system.patience? i = some p := by
  cases st with
  | borrow | giveBack | offer | close => exact System.patience?_start_of_some hi _ _
  | turn =>
    rw [← hi]
    exact System.patience?_hold ..
  | supplied | refused | pinged | closed =>
    rw [← hi]
    exact System.patience?_setPhase ..
  | lapse =>
    rw [← hi]
    exact System.patience?_expire ..

/-- What the moves of a call, at its own patience, and the end of its time keep, and being woken,
holds after any step. -/
theorem Step.keeps_call {kept : Phase → Prop} (st : Step policy s h t)
    (hp : s.system.patience? i = some p) (hi : s.system.phase? i = some q) (hq : kept q)
    (roused : ∀ {q}, kept q → kept q.roused) (expired : kept q.expired)
    (turned : ∀ {turn}, q.move policy p = .hold turn → kept (turn s.core).next)
    (answered : ∀ {r resume}, q.move policy p = .ask r resume → ∀ a, kept (resume a).1) :
    ∃ next, t.system.phase? i = some next ∧ kept next := by
  have own : ∀ {m}, s.move? policy i = some m → q.move policy p = m := by
    intro m hm
    simpa [move?, System.thread_of hp hi] using hm
  have asked : ∀ {r : Request} {resume : Except Failure r.Reply → Phase × List Notice},
      s.move? policy i = some (.ask r resume) → ∀ a,
      ∃ next, (s.goOn i (resume a).1).system.phase? i = some next ∧ kept next := by
    intro r resume hm a
    refine ⟨(resume a).1, (System.phase?_setPhase ..).trans ?_, answered (own hm) a⟩
    rw [if_pos rfl, hi]
    rfl
  by_cases hh : h.thread? = some i
  · cases st with
    | borrow | giveBack | offer | close => cases hh
    | @turn _ turn hm =>
      cases hh
      have hk := turned (own hm)
      rcases @System.hold_phase?_own _ _ _ turn hi with hn | hn
      · exact ⟨_, hn, hk⟩
      · exact ⟨_, hn, roused hk⟩
    | supplied hm | refused hm | pinged hm | closed hm =>
      cases hh
      exact asked hm _
    | lapse ht hl =>
      cases hh
      refine ⟨_, (System.phase?_expire ..).trans ?_, expired⟩
      rw [if_pos rfl, hi]
      rfl
  · rcases st.elsewhere hi hh with hn | hn
    · exact ⟨_, hn, hq⟩
    · exact ⟨_, hn, roused hq⟩

end TrackedSystem

/-! ## Endings that borrowers are told of -/

/-- What a borrow may come to: a connection, or a fault that says that the pool is exhausted, that
no connection could be opened, or that the pool is closed. -/
def Documented : Result → Prop
  | .ok got => got.isSome = true
  | .error f =>
    f.family? = some .exhausted ∨ f.family? = some .acquisition ∨ f.family? = some .closed

/-- The time that borrowers wait by default is a binary64 value, if it is limited. -/
def Limits.Reckonable (l : Limits) : Prop :=
  l.maxWaitMs < 0 ∨ Binary64.exceedsRange l.maxWaitMs = false

/-- The default time to wait. -/
def Limits.timeout (l : Limits) : Timeout := .real ((Binary64.ofInt l.maxWaitMs).divNat 1000)

theorem patience_none (l : Limits) : l.patience none =
    if l.maxWaitMs < 0 then .ok .endless
    else if Binary64.exceedsRange l.maxWaitMs = true then .error .waitOutOfRange
    else .ok (.upTo l.timeout) := rfl

theorem Limits.Reckonable.patience {l : Limits} (h : l.Reckonable) :
    ∃ p, l.patience none = .ok p := by
  rw [patience_none]
  by_cases hn : l.maxWaitMs < 0
  · exact ⟨.endless, if_pos hn⟩
  · refine ⟨.upTo l.timeout, ?_⟩
    rw [if_neg hn, h.resolve_left hn]
    rfl

theorem reckonable_of_patience {l : Limits} {p : Patience} (h : l.patience none = .ok p) :
    l.Reckonable ∧ (p = .endless ∨ 0 ≤ l.maxWaitMs ∧ p = .upTo l.timeout) := by
  rw [patience_none] at h
  split at h
  · rename_i hn
    cases h
    exact ⟨.inl hn, .inl rfl⟩
  · rename_i hn
    split at h
    · cases h
    · rename_i hx
      cases h
      exact ⟨.inr (by simpa using hx), .inr ⟨by omega, rfl⟩⟩

theorem not_reckonable_of_patience {l : Limits} {f : Fault} (h : l.patience none = .error f) :
    ¬l.Reckonable ∧ f = .waitOutOfRange := by
  refine ⟨fun hr => ?_, ?_⟩
  · obtain ⟨p, hp⟩ := hr.patience
    rw [hp] at h
    cases h
  · rw [patience_none] at h
    split at h
    · cases h
    · split at h <;> cases h
      rfl

/-- Borrowers may come to wait, for longer than anyone can. -/
def Limits.WaitsTooLong (l : Limits) : Prop :=
  0 ≤ l.maxWaitMs ∧ 0 ≤ l.maxTotal ∧ l.blockWhenExhausted = true ∧ l.timeout.isTooLong = true

/-- Every borrower can wait for as long as it is to. -/
def Limits.Waitable (l : Limits) : Prop := l.Reckonable ∧ ¬l.WaitsTooLong

/-- The patience of a borrower that can find the pool full and cannot wait then. -/
def Patience.Unbearable (policy : Policy) (p : Patience) : Prop :=
  0 ≤ policy.limits.maxTotal ∧ policy.limits.blockWhenExhausted = true ∧
    ∃ t, p = .upTo t ∧ t.isTooLong = true

/-- The phases of a borrower on its way to an ending that it is told of, or to the one that an
unbearable patience leads to. -/
def Phase.Borrows (policy : Policy) (p : Patience) : Phase → Prop
  | .finished r => Documented r ∨ r = .error .waitOutOfRange ∧ p.Unbearable policy
  | .withdrawing => p.Unbearable policy
  | q => q.serves true

section
variable {policy : Policy} {p : Patience} {q next : Phase} {core : Core}

theorem Phase.Borrows.roused (hq : q.Borrows policy p) : q.roused.Borrows policy p := by
  cases q <;> exact hq

theorem Phase.Borrows.expired (hq : q.Borrows policy p) : q.expired.Borrows policy p := by
  cases q <;> exact hq

theorem AtFull.borrows {late : Bool} (e : AtFull policy p late next)
    (hm : 0 ≤ policy.limits.maxTotal) : next.Borrows policy p := by
  cases e with
  | turnedDown | elapsed => exact .inl (.inl rfl)
  | waitsOn | waits => exact rfl
  | tooLong hb _ _ hl => exact ⟨hm, hb, _, rfl, hl⟩

theorem seek_borrows (late : Bool) (core : Core) :
    (seek policy p late core).next.Borrows policy p := by
  unfold seek
  split
  · exact .inl (.inr (.inr rfl))
  · split
    · cases policy.limits.testOnBorrow <;> exact rfl
    · split
      · exact rfl
      · rename_i hi hr
        have hn := none_left hi (by simpa using hr)
        exact (whenFull_spec policy p late).borrows hn.1

theorem Phase.Borrows.hold {turn : Core → Turn} (hq : q.Borrows policy p)
    (hm : q.move policy p = .hold turn) (core : Core) :
    (turn core).next.Borrows policy p := by
  cases q <;> cases hm
  case seeking late again => exact seek_borrows late core
  case withdrawing => exact .inr ⟨rfl, hq⟩
  case dropping c => exact rfl
  case forgoing f => exact .inl (.inr (.inl rfl))
  case enrolling c =>
    unfold enrol
    dsimp only
    split <;> exact rfl
  case delivering c fresh => exact rfl
  case announcing c fresh active => exact .inl rfl
  all_goals cases hq

theorem Phase.Borrows.ask {r : Request} {resume : Except Failure r.Reply → Phase × List Notice}
    (hq : q.Borrows policy p) (hm : q.move policy p = .ask r resume)
    (a : Except Failure r.Reply) : (resume a).1.Borrows policy p := by
  have e := sequel_of_ask hm a
  generalize (resume a).1 = next at e
  cases e with
  | supplied | refused | healthy | stale | discarded => exact rfl
  | turnedAway => exact .inl (.inr (.inr rfl))
  | checked | retired | swept => cases hq

end

namespace TrackedSystem

variable {policy : Policy} {rule : Rule} {s t : TrackedSystem} {i : Nat} {p : Patience} {q : Phase}

/-- Whatever happens, a borrower stays on its way and comes to nothing else. -/
theorem Leads.borrows (hl : Leads policy rule s t) (hp : s.system.patience? i = some p)
    (hi : s.system.phase? i = some q) (hq : q.Borrows policy p) :
    t.system.patience? i = some p ∧ ∃ q, t.system.phase? i = some q ∧ q.Borrows policy p := by
  induction hl with
  | refl => exact ⟨hp, q, hi, hq⟩
  | step _ _ st ih =>
    obtain ⟨hp, q, hi, hq⟩ := ih
    exact ⟨st.patience hp, st.keeps_call hp hi hq (fun hq => hq.roused) hq.expired
      (fun hm => hq.hold hm _) fun hm => hq.ask hm⟩

/-- A borrow that gives no timeout of its own comes to a result: at once, or as a call among the
calls of others. -/
inductive BorrowEnds (policy : Policy) (rule : Rule) (s : TrackedSystem) : Result → Prop where
  | atOnce {f} (h : policy.limits.patience none = .error f) : BorrowEnds policy rule s (.error f)
  | later {t p r} (h : policy.limits.patience none = .ok p)
      (hl : Leads policy rule (s.start p (.seeking false false)) t)
      (hr : t.system.phase? s.system.threads.length = some (.finished r)) :
      BorrowEnds policy rule s r

/-- A call that has just started. -/
theorem start_known (s : TrackedSystem) (p : Patience) (q : Phase) :
    (s.start p q).system.patience? s.system.threads.length = some p ∧
      (s.start p q).system.phase? s.system.threads.length = some q := by
  have ht : (s.start p q).system.threads[s.system.threads.length]? = some ⟨p, q⟩ := by
    simp [start, System.start]
  exact ⟨congrArg (Option.map _) ht, congrArg (Option.map _) ht⟩

/-- A borrow ends in a way that borrowers are told of, or its wait cannot be reckoned with. -/
theorem BorrowEnds.cases {r : Result} (h : BorrowEnds policy rule s r) :
    Documented r ∨ r = .error .waitOutOfRange ∧ ¬policy.limits.Waitable := by
  cases h with
  | atOnce h =>
    obtain ⟨hn, rfl⟩ := not_reckonable_of_patience h
    exact .inr ⟨rfl, fun hw => hn hw.1⟩
  | @later t p _ h hl hr =>
    obtain ⟨hp, hi⟩ := start_known s p (.seeking false false)
    obtain ⟨-, q, hq, hb⟩ := hl.borrows hp hi rfl
    cases hr.symm.trans hq
    rcases hb with hd | ⟨rfl, hm, hb, t, rfl, long⟩
    · exact .inl hd
    · rcases (reckonable_of_patience h).2 with hp | ⟨hw, hp⟩
      · cases hp
      · cases hp
        exact .inr ⟨rfl, fun hok => hok.2 ⟨hw, hm, hb, long⟩⟩

/-! ## A full pool -/

theorem counting_inventive : Surroundings.counting.Inventive fun n c => c < n where
  supply := by
    intro n c h
    cases h
    exact ⟨Nat.lt_irrefl n, Nat.lt_succ_self n⟩
  answer := by
    intro r n c h
    cases r with
    | supply => exact Nat.lt_succ_of_lt h
    | ping | close => exact h
  report := id

/-- Every pool can be opened that can report its limits. -/
theorem exists_justOpened (policy : Policy) (hl : policy.limits.isShowable = true) :
    ∃ s, JustOpened policy s ∧ s.core.closed = false := by
  have stocked : ∀ n idle w, ∃ opened w', stock .counting policy n idle w = (.ok opened, w') := by
    intro n
    induction n with
    | zero => exact fun idle w => ⟨idle, w, rfl⟩
    | succ n ih => exact fun idle w => ih (w :: idle) (w + 1)
  obtain ⟨idle, w, hs⟩ := stocked policy.limits.minIdle.toNat [] 0
  have ho : openPool .counting policy 0 = (.ok { idle }, w) := openPool_of_isShowable hl hs
  have hr := (Rest.opening counting_inventive ho).1
  refine ⟨_, ⟨Nat, .counting, 0, w, { idle }, ho, ?_, rfl⟩, rfl⟩
  exact List.nodup_iff_count.mpr fun d => hr.apart d

/-- A call that can hold the lock may have its turn. -/
theorem Leads.turn (hr : ∀ s h, Fair s h → rule s h) (hi : s.system.phase? i = some q)
    {turn : Core → Turn} (hm : ∀ p, q.move policy p = .hold turn) :
    Leads policy rule s (s.hold i turn) := by
  obtain ⟨thread, ht, rfl⟩ := Option.map_eq_some_iff.mp hi
  refine .step .refl (hr s (.turn i) ⟨trivial, trivial⟩) (.turn ?_)
  simp only [move?, ht, Option.map_some, hm]

/-- A borrow starts and takes a first look at the accounts as they are. -/
def looking (policy : Policy) (p : Patience) (s : TrackedSystem) : TrackedSystem :=
  (s.start p (.seeking false false)).hold s.system.threads.length (seek policy p false)

theorem looking_core (s : TrackedSystem) :
    (s.looking policy p).core = (seek policy p false s.core).core :=
  System.hold_core ..

theorem looking_phase (s : TrackedSystem) :
    (s.looking policy p).system.phase? s.system.threads.length =
        some (seek policy p false s.core).next ∨
      (s.looking policy p).system.phase? s.system.threads.length =
        some (seek policy p false s.core).next.roused :=
  System.hold_phase?_own (start_known s p (.seeking false false)).2

/-- Holding the lock is within every rule. -/
theorem Leads.look (hr : ∀ s h, Fair s h → rule s h) (s : TrackedSystem) :
    Leads policy rule (s.start p (.seeking false false)) (s.looking policy p) := by
  obtain ⟨hp, hi⟩ := start_known s p (.seeking false false)
  refine .step .refl (hr _ (.turn s.system.threads.length) ⟨trivial, trivial⟩) (.turn ?_)
  simp only [move?, System.thread_of hp hi]
  rfl

theorem Reachable.look (hr : ∀ s h, Fair s h → rule s h) (hs : Reachable policy rule s)
    (hp : policy.limits.patience none = .ok p) : Reachable policy rule (s.looking policy p) := by
  obtain ⟨s₀, h₀, hl⟩ := hs
  have hb : Leads policy rule s₀ (s.start p (.seeking false false)) :=
    .step hl (hr s (.borrow none) ⟨trivial, trivial⟩) (.borrow hp)
  exact ⟨s₀, h₀, hb.trans (.look hr s)⟩

/-- A bound on how many more borrows find something. -/
def spare (limits : Limits) (core : Core) : Nat :=
  2 * core.idle.length + (limits.maxTotal - core.total).toNat

/-- A borrower that finds something leaves less for others. -/
theorem spare_look {core : Core} (hm : 0 ≤ policy.limits.maxTotal) (ho : core.closed = false)
    (hf : core.idle ≠ [] ∨ core.hasRoom policy.limits = true) :
    spare policy.limits (seek policy p false core).core < spare policy.limits core ∧
      (seek policy p false core).core.closed = false := by
  have e := seek_entry policy p false false core
  generalize (seek policy p false core).core = core' at e
  generalize (seek policy p false core).next = next at e
  generalize (seek policy p false core).wake = wake at e
  cases e with
  | turnedAway hc =>
    rw [ho] at hc
    cases hc
  | @reuse _ _ _ c rest _ _ hi =>
    refine ⟨?_, ho⟩
    have hl : core.inUse.length ≤ (core.inUse.insert c).length := by
      rw [List.length_insert]
      split <;> omega
    simp only [spare, Core.total, hi, List.length_cons]
    omega
  | reserve _ hi hr =>
    refine ⟨?_, ho⟩
    rw [hasRoom_iff] at hr
    simp only [spare, Core.total] at hr ⊢
    omega
  | full _ hi hr =>
    rcases hf with hf | hf
    · exact absurd hi hf
    · rw [hr] at hf
      cases hf

/-- Borrowers come until there is nothing left for the next one. -/
theorem Reachable.fill (hr : ∀ s h, Fair s h → rule s h) (hm : 0 ≤ policy.limits.maxTotal)
    (hp : policy.limits.patience none = .ok p) (hs : Reachable policy rule s)
    (ho : s.core.closed = false) : ∃ t, Reachable policy rule t ∧ t.core.closed = false ∧
      t.core.idle = [] ∧ t.core.hasRoom policy.limits = false := by
  -- every look at the accounts that finds something leaves less to spare
  induction hn : spare policy.limits s.core using Nat.strongRecOn generalizing s with
  | ind n ih =>
    by_cases hf : s.core.idle ≠ [] ∨ s.core.hasRoom policy.limits = true
    · obtain ⟨hlt, hopen⟩ := spare_look (p := p) hm ho hf
      rw [← looking_core, hn] at hlt
      rw [← looking_core] at hopen
      exact ih _ hlt (hs.look hr hp) hopen rfl
    · exact ⟨s, hs, ho, by simpa using hf⟩

theorem not_over_of_tooLong {t : Timeout} (h : t.isTooLong = true) : t.isOver = false := by
  unfold Timeout.isTooLong Binary64.exceeds at h
  unfold Timeout.isOver Binary64.atMostZero
  cases hv : t.value with
  | finite negative m e =>
    rw [hv] at h
    simp only [Bool.and_eq_true, Bool.not_eq_true', decide_eq_true_eq] at h
    have hm : m ≠ 0 := by
      rintro rfl
      simp [Binary64.scaleUp] at h
    simp [h.1, hm]
  | infinite negative =>
    rw [hv] at h
    simpa using h
  | nan => rfl

/-- If the wait cannot be reckoned with, there is a state where a borrow ends in that. -/
theorem unwaitable_ends (hr : ∀ s h, Fair s h → rule s h)
    (hl : policy.limits.isShowable = true) (hw : ¬policy.limits.Waitable) :
    ∃ s, Reachable policy rule s ∧ BorrowEnds policy rule s (.error .waitOutOfRange) := by
  obtain ⟨s₀, h₀, ho⟩ := exists_justOpened policy hl
  have hs : Reachable policy rule s₀ := ⟨s₀, h₀, .refl⟩
  cases hp : policy.limits.patience none with
  | error f =>
    obtain ⟨-, rfl⟩ := not_reckonable_of_patience hp
    exact ⟨s₀, hs, .atOnce hp⟩
  | ok p =>
    obtain ⟨hk, hp'⟩ := reckonable_of_patience hp
    obtain ⟨h0, hm, hb, long⟩ : policy.limits.WaitsTooLong := by
      by_contra hn
      exact hw ⟨hk, hn⟩
    obtain rfl : p = .upTo policy.limits.timeout := by
      rcases hp' with rfl | ⟨-, rfl⟩
      · exfalso
        rw [patience_none, if_neg (by omega)] at hp
        split at hp <;> cases hp
      · rfl
    -- the borrower that finds nothing left is to wait, and cannot
    obtain ⟨s, hs, ho, hi, hroom⟩ := hs.fill hr hm hp ho
    have hn : (seek policy (.upTo policy.limits.timeout) false s.core).next = .withdrawing := by
      simp [seek, ho, hi, hroom, Patience.whenFull, hb, long, not_over_of_tooLong long]
    have hq : (s.looking policy (.upTo policy.limits.timeout)).system.phase?
        s.system.threads.length = some .withdrawing := by
      rcases @looking_phase policy (.upTo policy.limits.timeout) s with h | h
      · rw [h, hn]
      · rw [h, hn]
        rfl
    refine ⟨s, hs, .later hp ((Leads.look hr s).trans (.turn hr hq fun _ => rfl)) ?_⟩
    rcases @System.hold_phase?_own _ _ _ withdraw hq with h | h <;> exact h

end TrackedSystem

/-! ## A pool with an idle connection -/

/-- The phases of a borrower that has got a connection without a check. -/
inductive Phase.HandsOver (c : Conn) : Phase → Prop where
  | delivering : HandsOver c (.delivering c false)
  | announcing {active} : HandsOver c (.announcing c false active)
  | finished : HandsOver c (.finished (.ok (some c)))

namespace TrackedSystem

variable {policy : Policy} {rule : Rule} {s t : TrackedSystem} {h : Happening} {i : Nat}
  {p : Patience}
  {q : Phase} {c : Conn}

/-- Nothing takes a connection from who has got it. -/
theorem Step.handsOver (st : Step policy s h t) (hi : s.system.phase? i = some q)
    (hq : q.HandsOver c) : ∃ q, t.system.phase? i = some q ∧ q.HandsOver c := by
  have roused : ∀ {q : Phase}, q.HandsOver c → q.roused.HandsOver c := by
    intro q hq
    cases hq <;> constructor
  refine st.keeps_phase hi hq roused ?_
  intro next core ho
  cases ho with
  | late => cases hq <;> constructor
  | turned hm hn =>
    have turned : (Phase.HandsOver c) _ → next.HandsOver c := fun hk =>
      hn.elim (fun h => h ▸ hk) fun h => h ▸ roused hk
    cases hq <;> cases hm <;> exact turned (by constructor)
  | answered hm => cases hq <;> cases hm

theorem Leads.handsOver (hl : Leads policy rule s t) (hi : s.system.phase? i = some q)
    (hq : q.HandsOver c) : ∃ q, t.system.phase? i = some q ∧ q.HandsOver c := by
  induction hl with
  | refl => exact ⟨q, hi, hq⟩
  | step _ _ st ih =>
    obtain ⟨q, hi, hq⟩ := ih
    exact st.handsOver hi hq

/-- Who has got a connection can end. -/
theorem handsOver_ends (hr : ∀ s h, Fair s h → rule s h) (hi : s.system.phase? i = some q)
    (hq : q.HandsOver c) :
    ∃ t, Leads policy rule s t ∧ t.system.phase? i = some (.finished (.ok (some c))) := by
  have announced : ∀ {s : TrackedSystem} {active},
      s.system.phase? i = some (.announcing c false active) →
      ∃ t, Leads policy rule s t ∧ t.system.phase? i = some (.finished (.ok (some c))) := by
    intro s active hi
    refine ⟨_, .turn hr hi fun _ => rfl, ?_⟩
    rcases System.hold_phase?_own hi with hn | hn <;> exact hn
  cases hq with
  | delivering =>
    have hn : (s.hold i (deliver c false)).system.phase? i =
        some (.announcing c false s.core.inUse.length) := by
      rcases @System.hold_phase?_own _ _ _ (deliver c false) hi with hn | hn <;> exact hn
    obtain ⟨t, ht, hf⟩ := announced hn
    have hd : Leads policy rule s (s.hold i (deliver c false)) := .turn hr hi fun _ => rfl
    exact ⟨t, hd.trans ht, hf⟩
  | announcing => exact announced hi
  | finished => exact ⟨s, .refl, hi⟩

/-- A borrow that looks at the accounts now gets the connection: it can start, it comes to nothing
else, and whatever happens it can always come to that. -/
structure Serves (policy : Policy) (rule : Rule) (s : TrackedSystem) (c : Conn) : Prop where
  starts : ∃ p, policy.limits.patience none = .ok p
  only : ∀ p t r, policy.limits.patience none = .ok p → Leads policy rule (s.looking policy p) t →
    t.system.phase? s.system.threads.length = some (.finished r) → r = .ok (some c)
  ends : ∀ p t, policy.limits.patience none = .ok p → Leads policy rule (s.looking policy p) t →
    ∃ u, Leads policy rule t u ∧
      u.system.phase? s.system.threads.length = some (.finished (.ok (some c)))

theorem serves_iff (hr : ∀ s h, Fair s h → rule s h) (ht : policy.limits.testOnBorrow = false)
    (ho : s.core.closed = false) {rest : List Conn} (hi : s.core.idle = c :: rest) :
    Serves policy rule s c ↔ policy.limits.Reckonable := by
  have got : ∀ p, ∃ q, (s.looking policy p).system.phase? s.system.threads.length = some q ∧
      q.HandsOver c := by
    intro p
    have hn : (seek policy p false s.core).next = .delivering c false := by
      simp [seek, ho, hi, ht]
    rcases looking_phase (p := p) s with h | h
    · exact ⟨_, h, hn ▸ .delivering⟩
    · exact ⟨_, h, hn ▸ .delivering⟩
  constructor
  · intro hs
    obtain ⟨p, hp⟩ := hs.starts
    exact (reckonable_of_patience hp).1
  · intro hk
    refine ⟨hk.patience, fun p t r _ hl hf => ?_, fun p t _ hl => ?_⟩
    · obtain ⟨q, hq, hg⟩ := got p
      obtain ⟨q, hq, hg⟩ := hl.handsOver hq hg
      cases hf.symm.trans hq
      cases hg
      rfl
    · obtain ⟨q, hq, hg⟩ := got p
      obtain ⟨q, hq, hg⟩ := hl.handsOver hq hg
      exact handsOver_ends hr hq hg

/-- Whatever the limits of a pool are, whoever uses it and whatever happens meanwhile: a borrow
without a timeout of its own ends in a connection or in one of the three ways that borrowers are
told of, unless the default time to wait cannot be reckoned with; and then, if the pool can be
opened at all, there is a state where a borrow ends in that. An open pool that does not check its
connections serves every borrower from its idle connections exactly if the time to wait is a
binary64 value or not limited. -/
theorem borrow_documented_iff (policy : Policy) {rule : Rule}
    (hr : ∀ s h, Fair s h → rule s h) :
    ((∀ s r, Reachable policy rule s → BorrowEnds policy rule s r → Documented r) ↔
        (policy.limits.isShowable = true → policy.limits.Waitable)) ∧
    (∀ s r, Reachable policy rule s → BorrowEnds policy rule s r →
      Documented r ∨ r = .error .waitOutOfRange) ∧
    (policy.limits.testOnBorrow = false → ∀ s c rest, Reachable policy rule s →
      s.core.closed = false → s.core.idle = c :: rest →
        (Serves policy rule s c ↔ policy.limits.Reckonable)) := by
  refine ⟨⟨fun documented hl => ?_, fun hw s r hs he => ?_⟩, fun s r _ he => ?_,
    fun ht s c rest _ ho hi => serves_iff hr ht ho hi⟩
  · by_contra hw
    obtain ⟨s, hs, he⟩ := unwaitable_ends hr hl hw
    have hd := documented s _ hs he
    simp [Documented, Fault.family?] at hd
  · exact he.cases.resolve_right fun h => h.2 (hw hs.isShowable)
  · exact he.cases.imp_right And.left

/-- In a pool whose borrowers wait for as long as it takes they are told of every ending, and an
idle connection is had. -/
theorem borrow_documented_of_single : (∀ s h, Fair s h → Fair s h) ∧
    (∀ s r, Reachable .single Fair s → BorrowEnds .single Fair s r → Documented r) ∧
    Serves .single Fair single 0 := by
  have hr : ∀ s h, Fair s h → Fair s h := fun _ _ h => h
  have reckonable : Policy.single.limits.Reckonable := .inl (by decide)
  have waitable : Policy.single.limits.Waitable := by
    refine ⟨reckonable, fun long => ?_⟩
    exact absurd long.1 (by decide)
  obtain ⟨documented, -, served⟩ := borrow_documented_iff .single hr
  exact ⟨hr, documented.mpr fun _ => waitable,
    (served rfl single 0 [] ⟨single, single_justOpened, .refl⟩ rfl rfl).mpr reckonable⟩

/-- A pool whose borrowers are to wait for longer than any binary64 value. -/
def boundless : Policy where
  name := "boundless"
  limits := { minIdle := 1, maxWaitMs := (Nat.pow 10 400 : Nat) }

/-- There is an idle connection, the pool is open, and still no one gets it. -/
theorem boundless_borrow_overflows : boundless.limits.Valid ∧ ∃ s, Reachable boundless Fair s ∧
    s.core.closed = false ∧ s.core.idle = [0] ∧
      BorrowEnds boundless Fair s (.error .waitOutOfRange) ∧
        ¬Documented (.error .waitOutOfRange) := by
  have hp : boundless.limits.patience none = .error .waitOutOfRange := by
    have hx : Binary64.exceedsRange boundless.limits.maxWaitMs = true := by decide +kernel
    have hn : ¬boundless.limits.maxWaitMs < 0 := by decide +kernel
    rw [patience_none, if_neg hn, if_pos hx]
  have hs : JustOpened boundless single :=
    ⟨Nat, .counting, 0, 1, { idle := [0] },
      openPool_of_isShowable (Limits.isShowable_of_lt (by decide)) rfl, by decide, rfl⟩
  refine ⟨by decide, single, ⟨single, hs, .refl⟩, rfl, rfl, .atOnce hp, ?_⟩
  simp [Documented, Fault.family?]

end TrackedSystem
end RedisGateway.Pool
