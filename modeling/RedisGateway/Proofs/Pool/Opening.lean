import RedisGateway.Proofs.Pool.TrackedSystem
import RedisGateway.Proofs.Pool.Translation
import RedisGateway.Pool.Rehearsal

/-!
The opening of a pool, with all that is asked meanwhile of whoever surrounds it. Either every
connection that the limits call for is opened, or the first one that cannot be ends the opening and
those before it are closed again.
-/

namespace RedisGateway.Pool

/-! ## What is asked -/

/-- A request with its answer. -/
structure Exchange where
  request : Request
  answer : Except Failure request.Reply

namespace Exchange

def supplied (c : Conn) : Exchange := ⟨.supply, .ok c⟩

def refused (f : Failure) : Exchange := ⟨.supply, .error f⟩

/-- The answer of the supplier, if it was asked. -/
def supply? : Exchange → Option (Except Failure Conn)
  | ⟨.supply, a⟩ => some a
  | ⟨.ping _, _⟩ | ⟨.close _, _⟩ => none

end Exchange

/-- What the supplier's calls came to, in order. -/
def suppliesIn (log : List Exchange) : List (Except Failure Conn) :=
  log.filterMap Exchange.supply?

theorem suppliesIn_append (log more : List Exchange) :
    suppliesIn (log ++ more) = suppliesIn log ++ suppliesIn more := List.filterMap_append

theorem suppliesIn_supplied (cs : List Conn) :
    suppliesIn (cs.map .supplied) = cs.map .ok := by
  induction cs with
  | nil => rfl
  | cons c cs ih => exact congrArg (Except.ok c :: ·) ih

/-- No closing calls the supplier. -/
theorem suppliesIn_closings {closings : List Exchange} {cs : List Conn}
    (h : closings.map (·.request) = cs.map .close) : suppliesIn closings = [] := by
  refine List.filterMap_eq_nil_iff.mpr fun e he => ?_
  have hr : e.request ∈ cs.map Request.close := h ▸ List.mem_map_of_mem he
  obtain ⟨c, -, hc⟩ := List.mem_map.mp hr
  obtain ⟨r, a⟩ := e
  cases hc
  rfl

section
variable {σ : Type} (around : Surroundings σ)

/-- The surroundings with a record of what is asked of them, in order. -/
def Surroundings.recorded : Surroundings (σ × List Exchange) where
  answer r w :=
    let (a, w') := around.answer r w.1
    (a, w', w.2 ++ [⟨r, a⟩])
  report ns w := (around.report ns w.1, w.2)

/-- The record makes no difference. -/
theorem Surroundings.recorded_maps : around.recorded.Maps around Prod.fst :=
  ⟨fun _ _ => rfl, fun _ _ => rfl⟩

variable {around} {policy : Policy}

/-! ## The run of an opening -/

/-- Connections are closed in turn, each once, whatever becomes of each closing. -/
theorem closeAll_recorded (cs : List Conn) (w : σ) (log : List Exchange) :
    ∃ closings w', closings.map (·.request) = cs.map .close ∧
      closeAll around.recorded cs (w, log) = (w', log ++ closings) := by
  induction cs generalizing w log with
  | nil => exact ⟨[], w, rfl, by rw [closeAll, List.append_nil]⟩
  | cons c cs ih =>
    obtain ⟨a, w₁, ha⟩ : ∃ a w₁, around.answer (.close c) w = (a, w₁) := ⟨_, _, rfl⟩
    obtain ⟨closings, w', hc, hw⟩ := ih (around.report (closingNotices a) w₁)
      (log ++ [⟨.close c, a⟩])
    refine ⟨⟨.close c, a⟩ :: closings, w', by rw [List.map_cons, hc, List.map_cons], ?_⟩
    simp only [closeAll, Surroundings.recorded, ha]
    simpa [Surroundings.recorded] using hw

/-- What is asked by a pool that opens `n` more connections on top of those that are idle, and what
this comes to. -/
inductive Stocking (n : Nat) (idle : List Conn) :
    List Exchange → Except Fault (List Conn) → Prop where
  | stocked {cs : List Conn} (h : cs.length = n) :
      Stocking n idle (cs.map .supplied) (.ok (cs.reverse ++ idle))
  | refused {cs : List Conn} {f : Failure} {closings : List Exchange} (h : cs.length < n)
      (hc : closings.map (·.request) = (idle.reverse ++ cs).map .close) :
      Stocking n idle (cs.map .supplied ++ .refused f :: closings) (.error (.notOpened f))

theorem Stocking.supplied {n : Nat} {idle : List Conn} {c : Conn} {log : List Exchange}
    {result : Except Fault (List Conn)} (h : Stocking n (c :: idle) log result) :
    Stocking (n + 1) idle (.supplied c :: log) result := by
  cases h with
  | @stocked cs h =>
    have := @Stocking.stocked (n + 1) idle (c :: cs) (congrArg (· + 1) h)
    rwa [List.reverse_cons, List.append_assoc] at this
  | @refused cs f closings h hc =>
    refine @Stocking.refused (n + 1) idle (c :: cs) f closings (Nat.succ_lt_succ h) ?_
    rw [hc, List.reverse_cons, List.append_assoc, List.singleton_append]

theorem stock_recorded (n : Nat) (idle : List Conn) (w : σ) (log : List Exchange) :
    ∃ result more w', stock around.recorded policy n idle (w, log) = (result, w', log ++ more) ∧
      Stocking n idle more result := by
  induction n generalizing idle w log with
  | zero => exact ⟨.ok idle, [], w, by rw [stock, List.append_nil], @Stocking.stocked 0 idle [] rfl⟩
  | succ n ih =>
    obtain ⟨a, w₁, ha⟩ : ∃ a w₁, around.answer .supply w = (a, w₁) := ⟨_, _, rfl⟩
    cases a with
    | ok c =>
      obtain ⟨result, more, w', hs, hm⟩ := ih (c :: idle)
        (around.report [.connectionOpened policy.name] w₁) (log ++ [.supplied c])
      refine ⟨result, .supplied c :: more, w', ?_, hm.supplied⟩
      simp only [stock, Surroundings.recorded, ha]
      simpa [Surroundings.recorded, Exchange.supplied] using hs
    | error f =>
      obtain ⟨closings, w', hc, hw⟩ := @closeAll_recorded σ around idle.reverse
        (around.report [.poolNotOpened policy.name f] w₁) (log ++ [.refused f])
      refine ⟨.error (.notOpened f), .refused f :: closings, w', ?_,
        @Stocking.refused (n + 1) idle [] f closings (Nat.succ_pos n) (by rw [hc, List.append_nil])⟩
      simp only [stock, Surroundings.recorded, ha]
      simpa [Surroundings.recorded, Exchange.refused] using hw

/-- An opening comes to what its stocking comes to, if the limits can be reported. -/
theorem openPool_recorded (w : σ) : ∃ (stocked : Except Fault (List Conn)) (log : List Exchange)
    (w' : σ),
    openPool around.recorded policy (w, []) =
      (stocked.bind fun idle =>
        if policy.limits.isShowable then .ok { idle } else .error .integerTooLong, w', log) ∧
      Stocking policy.limits.minIdle.toNat [] log stocked := by
  obtain ⟨stocked, log, w', hs, hm⟩ := @stock_recorded σ around policy
    policy.limits.minIdle.toNat [] w []
  rw [List.nil_append] at hs
  refine ⟨stocked, log, ?_⟩
  cases stocked with
  | error f => exact ⟨w', by rw [openPool, hs]; rfl, hm⟩
  | ok idle =>
    cases hl : policy.limits.isShowable with
    | true =>
      refine ⟨around.report [.poolOpened policy.name policy.limits.maxTotal policy.limits.maxIdle
        policy.limits.minIdle] w', ?_, hm⟩
      rw [openPool_of_isShowable hl hs]
      rfl
    | false => exact ⟨w', openPool_of_not_isShowable hl hs, hm⟩

end

/-! ## All or nothing -/

/-- The first outcomes of the supplier are these connections. -/
def Yields (outcomes : Nat → Except Failure Conn) (cs : List Conn) : Prop :=
  (List.range cs.length).map outcomes = cs.map .ok

/-- The calls of the supplier come to what a sequence says, one after another. -/
def Follows (outcomes : Nat → Except Failure Conn) (log : List Exchange) : Prop :=
  (List.range (suppliesIn log).length).map outcomes = suppliesIn log

section
variable {outcomes : Nat → Except Failure Conn} {cs ds : List Conn} {f g : Failure}

theorem Yields.unique (h : Yields outcomes cs) (h' : Yields outcomes ds)
    (hl : cs.length = ds.length) : cs = ds := by
  have heq : cs.map Except.ok = ds.map (Except.ok : Conn → Except Failure Conn) := by
    rw [← h, ← h', hl]
  exact (List.map_inj_right fun _ _ => Except.ok.inj).mp heq

/-- Before the last of them there is no failure. -/
theorem Yields.not_error (h : Yields outcomes cs) {i : Nat} (hi : i < cs.length) :
    outcomes i ≠ .error f := by
  intro he
  have hm : Except.error f ∈ cs.map (Except.ok : Conn → Except Failure Conn) :=
    h ▸ List.mem_map.mpr ⟨i, List.mem_range.mpr hi, he⟩
  obtain ⟨c, -, hc⟩ := List.mem_map.mp hm
  cases hc

theorem Follows.stocked (h : Follows outcomes (cs.map .supplied)) : Yields outcomes cs := by
  rw [Follows, suppliesIn_supplied, List.length_map] at h
  exact h

theorem Follows.refused {closings : List Exchange} (hc : closings.map (·.request) = ds.map .close)
    (h : Follows outcomes (cs.map .supplied ++ .refused f :: closings)) :
    Yields outcomes cs ∧ outcomes cs.length = .error f := by
  have hs : suppliesIn (cs.map .supplied ++ .refused f :: closings) =
      cs.map .ok ++ [.error f] := by
    rw [suppliesIn_append, suppliesIn_supplied]
    exact congrArg (cs.map Except.ok ++ Except.error f :: ·) (suppliesIn_closings hc)
  rw [Follows, hs, List.length_append, List.length_map, List.length_singleton, List.range_succ,
    List.map_append] at h
  obtain ⟨hy, hf⟩ := List.append_inj h (by simp)
  exact ⟨hy, (List.cons.inj hf).1⟩

end

/-- The opening of a pool is all or nothing exactly if its limits can be reported, whatever
surrounds the pool and whatever its supplier does. If the first `n` calls of the supplier give
connections, nothing else is asked of anyone; these connections are idle in the new pool, the last
one in front, or else there is no pool for them. If a call before that is the first to fail, so does
the opening, for this cause; the connections opened until then were closed in turn, each once,
whatever became of each closing, and the supplier was not called again. -/
theorem opening_all_or_nothing_iff {σ : Type} (around : Surroundings σ) (policy : Policy) {n : Nat}
    (hn : policy.limits.minIdle = n) (w : σ) : ∃ (opened : Except Fault Core) (w' : σ)
      (log : List Exchange), openPool around policy w = (opened, w') ∧
      openPool around.recorded policy (w, []) = (opened, w', log) ∧
      ∀ outcomes, Follows outcomes log →
        (∀ cs : List Conn, cs.length = n → Yields outcomes cs →
          (opened = .ok { idle := cs.reverse } ↔ policy.limits.isShowable = true) ∧
          (policy.limits.isShowable = false → opened = .error .integerTooLong) ∧
          log = cs.map .supplied) ∧
        (∀ (cs : List Conn) f, cs.length < n → Yields outcomes cs →
          outcomes cs.length = .error f →
            (∃ e, opened = .error e ∧ e.family? = some .acquisition ∧ e.cause? = some f) ∧
            ∃ closings, closings.map (·.request) = cs.map .close ∧
              log = cs.map .supplied ++ .refused f :: closings) := by
  obtain ⟨stocked, log, w', hopen, hstock⟩ := @openPool_recorded σ around policy w
  have hseen := openPool_seen around.recorded_maps policy (w, [])
  rw [hopen] at hseen
  rw [hn, Int.toNat_natCast] at hstock
  refine ⟨_, w', log, hseen, hopen, fun outcomes hfollows => ?_⟩
  cases hstock with
  | @stocked ds hd =>
    have hy := hfollows.stocked
    refine ⟨fun cs hc hcs => ?_, fun cs f hc hcs hf => ?_⟩
    · rw [hcs.unique hy (hc.trans hd.symm), List.append_nil]
      cases hl : policy.limits.isShowable with
      | true => exact ⟨⟨fun _ => rfl, fun _ => rfl⟩, nofun, rfl⟩
      | false => exact ⟨⟨nofun, nofun⟩, fun _ => rfl, rfl⟩
    · exact absurd hf (hy.not_error (hd ▸ hc))
  | @refused ds g closings hd hclose =>
    obtain ⟨hy, hg⟩ := hfollows.refused hclose
    refine ⟨fun cs hc hcs => absurd hg (hcs.not_error (hc ▸ hd)), fun cs f hc hcs hf => ?_⟩
    -- neither of the two failures can come first
    have hlength : cs.length = ds.length := by
      rcases Nat.lt_trichotomy cs.length ds.length with hlt | heq | hgt
      · exact absurd hf (hy.not_error hlt)
      · exact heq
      · exact absurd hg (hcs.not_error hgt)
    obtain rfl := hcs.unique hy hlength
    obtain rfl := Except.error.inj (hf.symm.trans hg)
    exact ⟨⟨.notOpened f, rfl, rfl, rfl⟩, closings, hclose, rfl⟩

/-- A pool that is to open three connections, of which the third is refused and the first cannot be
closed. -/
def thirdRefused : Rehearsal where
  policy := { name := "p", limits := { minIdle := 3 } }
  supplies := [{ value := .fresh }, { value := .fresh },
    { value := .failing ⟨.connection, "refused"⟩ }]
  scripts := [(0, { close := some ⟨.connection, "lost"⟩ })]

theorem opening_all_or_nothing_iff_of_thirdRefused :
    let around := Rehearsal.surroundings
    let policy := thirdRefused.policy
    let refusal : Failure := ⟨.connection, "refused"⟩
    policy.limits.minIdle = (3 : Nat) ∧
      (openPool around policy thirdRefused).2.closed = [0, 1] ∧
      (∃ e, (openPool around policy thirdRefused).1 = .error e ∧ e.family? = some .acquisition ∧
        e.cause? = some refusal) ∧
      ∃ closings, closings.map (·.request) = [.close 0, .close 1] ∧
        (openPool around.recorded policy (thirdRefused, [])).2.2 =
          [.supplied 0, .supplied 1, .refused refusal] ++ closings := by
  intro around policy refusal
  have hn : policy.limits.minIdle = (3 : Nat) := rfl
  obtain ⟨opened, w', log, hopen, hrecorded, hall⟩ :=
    opening_all_or_nothing_iff around policy hn thirdRefused
  have hlog : log = (openPool around.recorded policy (thirdRefused, [])).2.2 := by rw [hrecorded]
  have hfollows : Follows (fun i => if i < 2 then .ok i else .error refusal) log := by
    rw [hlog]
    rfl
  obtain ⟨hfault, hclosings⟩ := (hall _ hfollows).2 [0, 1] refusal (by decide) rfl rfl
  refine ⟨hn, rfl, ?_, ?_⟩
  · rw [hopen]
    exact hfault
  · rw [hrecorded]
    exact hclosings

/-- Limits that are accepted and ask for one connection, and of which one is too long to be
reported. -/
def overlongLimits : Limits := { maxTotal := Fault.showableBound, minIdle := 1 }

theorem overlongLimits_valid : overlongLimits.Valid := by
  have hb : ¬(Fault.showableBound : Int) < 1 := by
    have := Fault.le_showableBound
    omega
  simp [Limits.Valid, Limits.contradiction?, overlongLimits, hb]

theorem overlongLimits_not_isShowable : overlongLimits.isShowable = false := by
  have h : Fault.isShowable overlongLimits.maxTotal = false := decide_eq_false (Nat.lt_irrefl _)
  rw [Limits.isShowable, h, Bool.false_and, Bool.false_and]

/-- A pool with these limits. -/
def overlong : Rehearsal where
  policy := { name := "p", limits := overlongLimits }

/-- The supplier opens the connection, which no one closes again, and there is no pool. -/
theorem opening_leaves_open : overlongLimits.Valid ∧ overlong.policy.limits = overlongLimits ∧
    (openPool Rehearsal.surroundings overlong.policy overlong).1 = .error .integerTooLong ∧
    (openPool Rehearsal.surroundings overlong.policy overlong).2.created = [0] ∧
    (openPool Rehearsal.surroundings overlong.policy overlong).2.closed = [] := by
  rw [@openPool_of_not_isShowable _ _ overlong.policy _ _ _ overlongLimits_not_isShowable rfl]
  exact ⟨overlongLimits_valid, rfl, rfl, rfl, rfl⟩

end RedisGateway.Pool
