import RedisGateway.Proofs.Pool.Solo

/-!
A lone borrower that checks what it takes. It tries the idle connections in turn, the one returned
last first, closes each one that does not answer, and hands out the first one that does. Every
connection that it gives up leaves a place free, so after the last one there is room for a new one.
-/

namespace RedisGateway.Pool

/-! ## Answers that are laid down -/

/-- What the connections and the supplier are going to answer. A borrower has one check made of each
connection, closes it at most once, and asks for one new connection at most. -/
structure Answers where
  ping : Conn → Except Failure Value
  close : Conn → Except Failure Unit
  supply : Except Failure Conn

/-- The requests by which connections are tried in turn and given up. -/
def givingUp (cs : List Conn) : List Request := cs.flatMap fun c => [.ping c, .close c]

def Request.isPing : Request → Bool
  | .ping _ => true
  | _ => false

/-- How many of the requests are pings. -/
def pings (rs : List Request) : Nat := rs.countP (·.isPing)

@[simp] theorem givingUp_cons (c : Conn) (cs : List Conn) :
    givingUp (c :: cs) = .ping c :: .close c :: givingUp cs := rfl

@[simp] theorem pings_ping (c : Conn) : pings [.ping c] = 1 := rfl

@[simp] theorem pings_supply : pings [.supply] = 0 := rfl

@[simp] theorem pings_givingUp (cs : List Conn) : pings (givingUp cs) = cs.length := by
  induction cs with
  | nil => rfl
  | cons c cs ih => simpa [pings, Request.isPing] using ih

@[simp] theorem pings_append (rs rs' : List Request) : pings (rs ++ rs') = pings rs + pings rs' :=
  List.countP_append

namespace Answers

/-- Surroundings that answer as it is laid down and write down what they are asked. -/
def surroundings (answers : Answers) : Surroundings (List Request) where
  answer
    | .supply, asked => (answers.supply, asked ++ [.supply])
    | .ping c, asked => (answers.ping c, asked ++ [.ping c])
    | .close c, asked => (answers.close c, asked ++ [.close c])
  report _ asked := asked

/-- What a lone borrower comes to, the accounts after it, and what was asked. -/
def borrow (answers : Answers) (policy : Policy) (timeout : Option Timeout) (core : Core) :
    Result × Core × List Request :=
  Pool.borrow answers.surroundings policy timeout core []

/-- The connection answers its check. -/
def healthy (answers : Answers) (c : Conn) : Bool := isHealthy (answers.ping c)

end Answers

/-! ## Timeouts that are numbers -/

theorem isNumber_of_isOver {t : Timeout} (h : t.isOver = true) : t.isNumber = true := by
  rw [Timeout.isNumber, bne_iff_ne]
  rintro rfl
  cases h

theorem isNumber_of_isTooLong {t : Timeout} (h : t.isTooLong = true) : t.isNumber = true := by
  rw [Timeout.isNumber, bne_iff_ne]
  rintro rfl
  cases h

theorem ofRatio_ne_nan (negative : Bool) (p q : Nat) : Binary64.ofRatio negative p q ≠ .nan := by
  intro h
  unfold Binary64.ofRatio at h
  split at h
  · cases h
  · dsimp only at h
    -- first whether the mantissa is rounded up to the next power of two, then whether it fits
    split at h <;> split at h <;> cases h

/-- A quotient of integers is a number. -/
theorem divNat_ofInt_ne_nan (n : Int) (k : Nat) : (Binary64.ofInt n).divNat k ≠ .nan := by
  have hn : Binary64.ofInt n ≠ .nan := ofRatio_ne_nan _ _ _
  unfold Binary64.divNat
  split
  · exact ofRatio_ne_nan _ _ _
  · exact hn

/-! ## What a borrower does with what it finds -/

section
variable {policy : Policy} {p : Patience} {answers : Answers} {core : Core} {c : Conn}
  {rest : List Conn}

/-- A borrower on its way through the idle connections. -/
abbrev Answers.searches (answers : Answers) (policy : Policy) (p : Patience) (fuel : Nat)
    (core : Core) (asked : List Request) : Result × Core × List Request :=
  (Phase.seeking false false).run answers.surroundings policy p fuel core asked

/-- A borrower at an open pool takes the connection in front and has it checked. -/
theorem seek_vets (ht : policy.limits.testOnBorrow = true) (ho : core.closed = false)
    (hc : c ∉ core.inUse) : seek policy p false { core with idle := c :: rest } =
      { core := { core with idle := rest, inUse := c :: core.inUse }, next := .vetting c } := by
  simp [seek, ho, ht, List.insert_of_not_mem hc]

/-- With nothing idle and room for a connection it has a new one opened. -/
theorem seek_opens (ho : core.closed = false)
    (hr : { core with idle := [] }.hasRoom policy.limits = true) :
    seek policy p false { core with idle := [] } =
      { core := { core with idle := [], creating := core.creating + 1 }, next := .opening } := by
  simp only [seek, hr, if_true]
  simp [ho]

/-- With nothing idle and no room it does what its patience says. -/
theorem seek_full (ho : core.closed = false)
    (hr : { core with idle := [] }.hasRoom policy.limits = false) (late : Bool) :
    seek policy p late { core with idle := [] } =
      { core := { core with idle := [] }, next := p.whenFull policy late } := by
  simp only [seek, hr]
  simp [ho]

/-- A connection that does not answer is closed and given up, and the borrower looks again. -/
theorem searches_stale (ht : policy.limits.testOnBorrow = true) (ho : core.closed = false)
    (hc : c ∉ core.inUse) (hh : answers.healthy c = false) (fuel : Nat) (asked : List Request) :
    answers.searches policy p (fuel + 4) { core with idle := c :: rest } asked =
      answers.searches policy p fuel { core with idle := rest }
        (asked ++ [.ping c, .close c]) := by
  have hb : isHealthy (answers.ping c) = false := hh
  simp [Answers.searches, Phase.run, Phase.move, seek_vets ht ho hc, drop, Answers.surroundings, hb]

/-- A connection that answers is handed out. -/
theorem searches_healthy (ht : policy.limits.testOnBorrow = true) (ho : core.closed = false)
    (hc : c ∉ core.inUse) (hh : answers.healthy c = true) (fuel : Nat) (asked : List Request) :
    answers.searches policy p (fuel + 5) { core with idle := c :: rest } asked =
      (.ok (some c), { core with idle := rest, inUse := c :: core.inUse },
        asked ++ [.ping c]) := by
  have hb : isHealthy (answers.ping c) = true := hh
  simp [Answers.searches, Phase.run, Phase.move, seek_vets ht ho hc, deliver, announce,
    Answers.surroundings, hb]

/-- With nothing idle and room for a connection, a new one is handed out without a check. -/
theorem searches_supplied (ho : core.closed = false)
    (hr : { core with idle := [] }.hasRoom policy.limits = true) (hs : answers.supply = .ok c)
    (hc : c ∉ core.inUse) (fuel : Nat) (asked : List Request) :
    answers.searches policy p (fuel + 6) { core with idle := [] } asked =
      (.ok (some c), { core with idle := [], inUse := c :: core.inUse }, asked ++ [.supply]) := by
  have he : enrol c { core with idle := [], creating := core.creating + 1 } =
      { core := { core with idle := [], inUse := c :: core.inUse }
        next := .delivering c true } := by
    simp [enrol, ho, List.insert_of_not_mem hc]
  simp [Answers.searches, Phase.run, Phase.move, seek_opens ho hr, hs, he, deliver, announce,
    Answers.surroundings]

/-- If the supplier fails, the accounts are left as they were. -/
theorem searches_refused (ho : core.closed = false)
    (hr : { core with idle := [] }.hasRoom policy.limits = true) {f : Failure}
    (hs : answers.supply = .error f) (fuel : Nat) (asked : List Request) :
    answers.searches policy p (fuel + 4) { core with idle := [] } asked =
      (.error (.notOpened f), { core with idle := [] }, asked ++ [.supply]) := by
  simp [Answers.searches, Phase.run, Phase.move, seek_opens ho hr, hs, forgo, Answers.surroundings]

/-- With nothing idle and no room it asks nothing of anyone. It waits for ever only if it is to wait
and its time never runs out. -/
theorem searches_full (answers : Answers) (ho : core.closed = false)
    (hr : { core with idle := [] }.hasRoom policy.limits = false) (fuel : Nat)
    (asked : List Request) :
    ∃ f, answers.searches policy p (fuel + 4) { core with idle := [] } asked =
        (.error f, { core with idle := [] }, asked) ∧
      (f = .waitsForever ↔ policy.limits.blockWhenExhausted = true ∧ p.runsOut = false) := by
  have hs := seek_full (p := p) ho hr
  have e := whenFull_spec policy p false
  generalize hw : p.whenFull policy false = next at e
  cases e with
  | turnedDown hb =>
    refine ⟨.poolExhausted policy.name policy.limits.maxTotal, ?_, by simp [hb]⟩
    simp [Answers.searches, Phase.run, Phase.move, hs, hw, Answers.surroundings]
  | waitsOn hb =>
    refine ⟨.waitsForever, ?_, by simp [hb, Patience.runsOut]⟩
    simp [Answers.searches, Phase.run, Phase.move, hs, hw, Answers.surroundings, Patience.runsOut]
  | @elapsed t _ hb h =>
    have hn : t.isNumber = true := by
      rcases h with h | h
      · exact h.2
      · exact isNumber_of_isOver h
    refine ⟨.waitElapsed policy.name t.text policy.limits.maxTotal, ?_, by
      simp [Patience.runsOut, hn]⟩
    simp [Answers.searches, Phase.run, Phase.move, hs, hw, Answers.surroundings]
  | @tooLong t _ hb _ _ hl =>
    -- it stands in line for a moment, and leaves it
    refine ⟨.waitOutOfRange, ?_, by simp [Patience.runsOut, isNumber_of_isTooLong hl]⟩
    simp [Answers.searches, Phase.run, Phase.move, hs, hw, withdraw, Answers.surroundings]
  | @waits t _ hb =>
    cases hn : t.isNumber with
    | false =>
      refine ⟨.waitsForever, ?_, by simp [hb, Patience.runsOut, hn]⟩
      simp [Answers.searches, Phase.run, Phase.move, hs, hw, Answers.surroundings,
        Patience.runsOut, hn]
    | true =>
      -- it parks, its time runs out, and it finds what it found before
      have hl : (Patience.upTo t).whenFull policy true =
          .finished (.error (.waitElapsed policy.name t.text policy.limits.maxTotal)) := by
        simp [Patience.whenFull, hb, hn]
      refine ⟨.waitElapsed policy.name t.text policy.limits.maxTotal, ?_, by
        simp [Patience.runsOut, hn]⟩
      simp [Answers.searches, Phase.run, Phase.move, hs, hw, hl, Answers.surroundings,
        Patience.runsOut, hn]

/-- Connections that do not answer are given up one after another, and nothing else changes. -/
theorem searches_past {stale : List Conn} (ht : policy.limits.testOnBorrow = true)
    (ho : core.closed = false) (hu : ∀ d ∈ stale, d ∉ core.inUse)
    (hh : ∀ d ∈ stale, answers.healthy d = false) (fuel : Nat) (asked : List Request) :
    answers.searches policy p (fuel + 4 * stale.length) { core with idle := stale ++ rest } asked =
      answers.searches policy p fuel { core with idle := rest } (asked ++ givingUp stale) := by
  induction stale generalizing asked with
  | nil => simp [givingUp]
  | cons d stale ih =>
    have hf : fuel + 4 * (d :: stale).length = fuel + 4 * stale.length + 4 := by
      rw [List.length_cons]
      omega
    rw [hf, List.cons_append, searches_stale ht ho (hu d (List.mem_cons_self ..))
      (hh d (List.mem_cons_self ..)), ih (fun e he => hu e (List.mem_cons_of_mem _ he))
      fun e he => hh e (List.mem_cons_of_mem _ he)]
    simp

end

/-! ## Borrowing -/

/-- What becomes of a lone borrower that checks what it takes: what it comes to, the accounts after
it, and everything that was asked, in order. -/
structure Vets (answers : Answers) (policy : Policy) (timeout : Option Timeout) (core : Core) :
    Prop where
  pings : pings (answers.borrow policy timeout core).2.2 ≤ core.idle.length
  /-- It comes to an end, unless it finds nothing at all and is to wait for as long as it takes, or
  for a time that is no number. -/
  ends : (answers.borrow policy timeout core).1 = .error .waitsForever ↔
    (timeout = none ∧ policy.limits.maxWaitMs < 0 ∨ timeout = some (.real .nan)) ∧
      policy.limits.blockWhenExhausted = true ∧ core.idle = [] ∧
      core.hasRoom policy.limits = false
  /-- It gets the first connection that answers; those in front of it are closed, and those behind
  it are left alone. -/
  reused : ∀ stale c rest, core.idle = stale ++ c :: rest →
    (∀ d ∈ stale, answers.healthy d = false) → answers.healthy c = true →
    answers.borrow policy timeout core =
      (.ok (some c), { core with idle := rest, inUse := c :: core.inUse },
        givingUp stale ++ [.ping c])
  /-- If none answers, all of them are closed and it gets a new one. -/
  renewed : core.idle ≠ [] → (∀ d ∈ core.idle, answers.healthy d = false) →
    ∀ c, answers.supply = .ok c → answers.borrow policy timeout core =
      (.ok (some c), { core with idle := [], inUse := c :: core.inUse },
        givingUp core.idle ++ [.supply])
  /-- If there is none to be had, it fails with the supplier's failure. -/
  refused : core.idle ≠ [] → (∀ d ∈ core.idle, answers.healthy d = false) →
    ∀ f, answers.supply = .error f → answers.borrow policy timeout core =
      (.error (.notOpened f), { core with idle := [] }, givingUp core.idle ++ [.supply])

/-- Who never runs out of time was not given any limit, or one that is no number. -/
theorem patience_runsOut {limits : Limits} {timeout : Option Timeout} {p : Patience}
    (h : limits.patience timeout = .ok p) :
    p.runsOut = false ↔
      timeout = none ∧ limits.maxWaitMs < 0 ∨ timeout = some (.real .nan) := by
  cases timeout with
  | some t =>
    simp only [Limits.patience] at h
    split at h <;> cases h
    simp [Patience.runsOut, Timeout.isNumber]
  | none =>
    simp only [Limits.patience] at h
    split at h
    · rename_i hw
      cases h
      simp [hw, Patience.runsOut]
    · rename_i hw
      split at h <;> cases h
      have hn := divNat_ofInt_ne_nan limits.maxWaitMs 1000
      simp [hw, Patience.runsOut, Timeout.isNumber, hn]

/-- The first connection that answers, if there is one. -/
theorem first_healthy (answers : Answers) (cs : List Conn) :
    (∃ stale c rest, cs = stale ++ c :: rest ∧ (∀ d ∈ stale, answers.healthy d = false) ∧
      answers.healthy c = true) ∨ ∀ d ∈ cs, answers.healthy d = false := by
  cases hf : cs.find? answers.healthy with
  | none => exact .inr (by simpa using hf)
  | some c =>
    obtain ⟨hc, stale, rest, hcs, hh⟩ := List.find?_eq_some_iff_append.mp hf
    exact .inl ⟨stale, c, rest, hcs, fun d hd => by simpa using hh d hd, hc⟩

section
variable {policy : Policy} {timeout : Option Timeout} {p : Patience} {answers : Answers}
  {core : Core}

/-- Every connection that is given up leaves a place free. -/
theorem hasRoom_of_given_up (hi : core.idle ≠ [])
    (hm : 0 ≤ policy.limits.maxTotal → (core.total : Int) ≤ policy.limits.maxTotal) :
    { core with idle := [] }.hasRoom policy.limits = true := by
  have hl := List.length_pos_of_ne_nil hi
  rw [hasRoom_iff]
  simp only [Core.total, List.length_nil] at hm ⊢
  omega

variable (hp : policy.limits.patience timeout = .ok p) (ht : policy.limits.testOnBorrow = true)
  (ho : core.closed = false) (hu : ∀ d ∈ core.idle, d ∉ core.inUse)

include hp ht ho hu

/-- The borrower's way past the connections that do not answer; it has fuel for what comes then. -/
theorem borrow_past (answers : Answers) {stale rest : List Conn} (hi : core.idle = stale ++ rest)
    (hh : ∀ d ∈ stale, answers.healthy d = false) :
    ∃ fuel, answers.borrow policy timeout core =
      answers.searches policy p (fuel + 6) { core with idle := rest } (givingUp stale) := by
  obtain ⟨fuel, hf⟩ : ∃ fuel, core.callBound = fuel + 6 + 4 * stale.length := by
    have hl := congrArg List.length hi
    rw [List.length_append] at hl
    refine ⟨core.callBound - 6 - 4 * stale.length, ?_⟩
    simp only [Core.callBound]
    omega
  have hstart : answers.borrow policy timeout core =
      answers.searches policy p core.callBound { core with idle := stale ++ rest } [] := by
    rw [← hi]
    simp only [Answers.borrow, Pool.borrow, hp]
  have hstale : ∀ d ∈ stale, d ∉ core.inUse := by
    intro d hd
    apply hu
    rw [hi]
    exact List.mem_append_left _ hd
  exact ⟨fuel, by rw [hstart, hf, searches_past ht ho hstale hh, List.nil_append]⟩

theorem borrow_reused {stale rest : List Conn} {c : Conn} (hi : core.idle = stale ++ c :: rest)
    (hh : ∀ d ∈ stale, answers.healthy d = false) (hc : answers.healthy c = true) :
    answers.borrow policy timeout core =
      (.ok (some c), { core with idle := rest, inUse := c :: core.inUse },
        givingUp stale ++ [.ping c]) := by
  obtain ⟨fuel, hb⟩ := borrow_past hp ht ho hu answers hi hh
  have hcu : c ∉ core.inUse := hu c (by simp [hi])
  exact hb.trans (searches_healthy ht ho hcu hc (fuel + 1) _)

theorem borrow_renewed (hr : { core with idle := [] }.hasRoom policy.limits = true)
    (hh : ∀ d ∈ core.idle, answers.healthy d = false) {c : Conn} (hs : answers.supply = .ok c)
    (hc : c ∉ core.inUse) : answers.borrow policy timeout core =
      (.ok (some c), { core with idle := [], inUse := c :: core.inUse },
        givingUp core.idle ++ [.supply]) := by
  obtain ⟨fuel, hb⟩ := borrow_past hp ht ho hu answers (List.append_nil _).symm hh
  exact hb.trans (searches_supplied ho hr hs hc fuel _)

theorem borrow_refused (hr : { core with idle := [] }.hasRoom policy.limits = true)
    (hh : ∀ d ∈ core.idle, answers.healthy d = false) {f : Failure}
    (hs : answers.supply = .error f) : answers.borrow policy timeout core =
      (.error (.notOpened f), { core with idle := [] }, givingUp core.idle ++ [.supply]) := by
  obtain ⟨fuel, hb⟩ := borrow_past hp ht ho hu answers (List.append_nil _).symm hh
  exact hb.trans (searches_refused ho hr hs (fuel + 2) _)

theorem borrow_full (answers : Answers) (hi : core.idle = [])
    (hr : core.hasRoom policy.limits = false) :
    ∃ f, answers.borrow policy timeout core = (.error f, core, []) ∧
      (f = .waitsForever ↔ policy.limits.blockWhenExhausted = true ∧ p.runsOut = false) := by
  have hcore : { core with idle := [] } = core := by rw [← hi]
  obtain ⟨fuel, hb⟩ := borrow_past hp ht ho hu answers (List.append_nil _).symm (by simp [hi])
  obtain ⟨f, hf, hw⟩ := searches_full (p := p) answers ho (by rwa [hcore]) (fuel + 2) []
  rw [hcore] at hf hb
  rw [hi] at hb
  exact ⟨f, hb.trans hf, hw⟩

/-- A borrower that has something to try or room for a new connection does not wait, and has one
check made of each idle connection at most. -/
theorem borrow_tried (hr : core.idle ≠ [] ∨ core.hasRoom policy.limits = true)
    (hm : 0 ≤ policy.limits.maxTotal → (core.total : Int) ≤ policy.limits.maxTotal)
    (hn : ∀ c, answers.supply = .ok c → c ∉ core.inUse) :
    ∃ r core' asked, answers.borrow policy timeout core = (r, core', asked) ∧
      pings asked ≤ core.idle.length ∧ r ≠ .error .waitsForever := by
  rcases first_healthy answers core.idle with ⟨stale, c, rest, hi, hh, hc⟩ | hh
  · refine ⟨_, _, _, borrow_reused hp ht ho hu hi hh hc, ?_, by simp⟩
    simp only [hi, pings_append, pings_givingUp, pings_ping, List.length_append, List.length_cons]
    omega
  · have room : { core with idle := [] }.hasRoom policy.limits = true := by
      by_cases hi : core.idle = []
      · rw [← hi]
        exact hr.resolve_left (absurd hi)
      · exact hasRoom_of_given_up hi hm
    cases hs : answers.supply with
    | ok c => exact ⟨_, _, _, borrow_renewed hp ht ho hu room hh hs (hn c hs), by simp, by simp⟩
    | error f => exact ⟨_, _, _, borrow_refused hp ht ho hu room hh hs, by simp, by simp⟩

/-- How a lone borrower fares whose pool keeps to its limits. -/
theorem vets (hm : 0 ≤ policy.limits.maxTotal → (core.total : Int) ≤ policy.limits.maxTotal)
    (hn : ∀ c, answers.supply = .ok c → c ∉ core.inUse) : Vets answers policy timeout core := by
  have outcome : pings (answers.borrow policy timeout core).2.2 ≤ core.idle.length ∧
      ((answers.borrow policy timeout core).1 = .error .waitsForever ↔
        (timeout = none ∧ policy.limits.maxWaitMs < 0 ∨ timeout = some (.real .nan)) ∧
          policy.limits.blockWhenExhausted = true ∧ core.idle = [] ∧
          core.hasRoom policy.limits = false) := by
    by_cases hr : core.idle ≠ [] ∨ core.hasRoom policy.limits = true
    · obtain ⟨r, core', asked, hb, hping, hend⟩ := borrow_tried hp ht ho hu hr hm hn
      rw [hb]
      refine ⟨hping, ⟨fun h => absurd h hend, ?_⟩⟩
      rintro ⟨-, -, hi, hfull⟩
      simp [hi, hfull] at hr
    · obtain ⟨hi, hfull⟩ : core.idle = [] ∧ core.hasRoom policy.limits = false := by
        simpa using hr
      obtain ⟨f, hb, hw⟩ := borrow_full hp ht ho hu answers hi hfull
      rw [hb]
      exact ⟨Nat.zero_le _, by simp [hi, hfull, hw, patience_runsOut hp, and_comm]⟩
  exact {
    pings := outcome.1
    ends := outcome.2
    reused := fun _ _ _ hi hh hc => borrow_reused hp ht ho hu hi hh hc
    renewed := fun hi hh c hs =>
      borrow_renewed hp ht ho hu (hasRoom_of_given_up hi hm) hh hs (hn c hs)
    refused := fun hi hh _ hs => borrow_refused hp ht ho hu (hasRoom_of_given_up hi hm) hh hs }

end

/-- A pool of three connections, which are checked whenever they are borrowed. -/
def Policy.vetted : Policy where
  name := "vetted"
  limits := { maxTotal := 3, maxIdle := 3, minIdle := 3, testOnBorrow := true }

/-- No connection passes its check, and the supplier has a new one. -/
def Answers.allStale : Answers where
  ping c := if c = 0 then .ok (.flag false) else .error ⟨.connection, "reset by peer"⟩
  close _ := .ok ()
  supply := .ok 3

namespace TrackedSystem

/-- At every open pool that callers of any kind brought about, a lone borrower that checks what it
takes comes to an end after at most one ping for each idle connection: with the first one that
answers, with a new one after the last, or with the failure of the supplier. Only with nothing idle
and no place free does it wait, and for ever if it is to wait and its time never runs out. -/
theorem borrow_vets {policy : Policy} {timeout : Option Timeout} {p : Patience}
    {answers : Answers} {s : TrackedSystem} (hv : policy.limits.Valid)
    (hp : policy.limits.patience timeout = .ok p) (ht : policy.limits.testOnBorrow = true)
    (hs : Reachable policy Novel s) (ho : s.core.closed = false)
    (hn : ∀ c, answers.supply = .ok c → c ∉ s.opened) : Vets answers policy timeout s.core := by
  have sound := hs.sound hv fun _ _ hr => hr
  refine vets hp ht ho (fun d => sound.idle_not_inUse) sound.total fun c hc hu => ?_
  exact hn c hc (sound.opened_of_inUse hu)

theorem vetted_justOpened :
    JustOpened .vetted { system := { core := { idle := [2, 1, 0] } }, opened := [2, 1, 0] } :=
  ⟨Nat, .counting, 0, 3, { idle := [2, 1, 0] },
    openPool_of_isShowable (Limits.isShowable_of_lt (by decide)) rfl, by decide, rfl⟩

/-- One connection is borrowed and the other two do not answer: both are closed, and the borrower
gets a new one. -/
theorem borrow_vets_of_two_stale : Policy.vetted.limits.Valid ∧
    Policy.vetted.limits.patience none = .ok .endless ∧
    Policy.vetted.limits.testOnBorrow = true ∧ ∃ s, Reachable .vetted Novel s ∧
      s.core.closed = false ∧ (∀ c, Answers.allStale.supply = .ok c → c ∉ s.opened) ∧
      Answers.allStale.borrow .vetted none s.core =
        (.ok (some 3), { idle := [], inUse := [3, 2] },
          [.ping 1, .close 1, .ping 0, .close 0, .supply]) := by
  have hv : Policy.vetted.limits.Valid := by decide
  obtain ⟨s, hs, h⟩ := reachable_of_play Novel vetted_justOpened
    [.borrow none, .turn 0, .pinged 0 (.ok (.flag true)), .turn 0, .turn 0]
    (fun s => s.core == { idle := [1, 0], inUse := [2] } && s.opened == [2, 1, 0]) (by decide)
  obtain ⟨hc, hopened⟩ : s.core = { idle := [1, 0], inUse := [2] } ∧ s.opened = [2, 1, 0] := by
    simpa using h
  have ho : s.core.closed = false := by rw [hc]
  have hn : ∀ c, Answers.allStale.supply = .ok c → c ∉ s.opened := by
    intro c h
    cases h
    rw [hopened]
    decide
  have hp : Policy.vetted.limits.patience none = .ok .endless := rfl
  have hb := (borrow_vets hv hp rfl hs ho hn).renewed
    (by rw [hc]; decide) (by rw [hc]; decide) 3 rfl
  rw [hc] at hb
  exact ⟨hv, hp, rfl, s, hs, ho, hn, by rw [hc]; exact hb⟩

/-- All three connections are borrowed, so there is nothing to try, and who borrows next waits for
ever if no one else comes, without a timeout as well as with one that is no number. -/
theorem full_pool_waits : ∃ s, Reachable .vetted Novel s ∧ s.core.closed = false ∧
    s.core.idle = [] ∧ (Answers.allStale.borrow .vetted none s.core).1 = .error .waitsForever ∧
      (Answers.allStale.borrow .vetted (some (.real .nan)) s.core).1 = .error .waitsForever := by
  obtain ⟨s, hs, h⟩ := reachable_of_play Novel vetted_justOpened
    [.borrow none, .turn 0, .pinged 0 (.ok (.flag true)), .turn 0, .turn 0,
      .borrow none, .turn 1, .pinged 1 (.ok (.flag true)), .turn 1, .turn 1,
      .borrow none, .turn 2, .pinged 2 (.ok (.flag true)), .turn 2, .turn 2]
    (fun s => s.core == { inUse := [0, 1, 2] }) (by decide)
  have hc : s.core = { inUse := [0, 1, 2] } := by simpa using h
  refine ⟨s, hs, ?_, ?_, ?_, ?_⟩ <;> rw [hc]
  · rfl
  · rfl

end TrackedSystem
end RedisGateway.Pool
