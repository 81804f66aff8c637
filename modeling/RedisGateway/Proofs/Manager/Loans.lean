import RedisGateway.Proofs.Manager.Accounts
import RedisGateway.Proofs.Pool.Custody

/-!
Who has the clients of the pool. As long as every handle is released once at the most, each client
that the pool has lent is the loan of one caller, which gives it back or has handed it out.
-/

namespace RedisGateway

namespace Stage

/-- The handle that a method call is to give back before it ends. -/
def owed? : Stage → Option Handle
  | .starting (.release h) => h
  | .sending h _ | .leaving h _ | .returning h _ => some h
  | _ => none

/-- The handle that a method call has, be it that it owes it or that it got it for good. -/
def carried? : Stage → Option Handle
  | .ended (.handle (.ok h)) => some h
  | stage => stage.owed?

theorem got_owed (q : Option Order) (f : Fault) : (got q (.error f)).owed? = none := by
  cases q <;> rfl

theorem got_carried (q : Option Order) (h : Handle) : (got q (.ok h)).carried? = some h := by
  cases q <;> rfl

/-- A method call at a manager with a pool has nothing to give back until a borrow comes back. -/
theorem Transition.owed {m m' : Manager} {stage next : Stage} (g : Transition m stage m' next)
    (hc : ∀ d resume, stage.move ≠ .call d resume)
    (hm : ∀ t c, m.facade ≠ some ⟨t, .direct c⟩) (ho : stage.owed? = none) :
    next.owed? = none := by
  cases g with
  | direct hs hf => exact absurd hf (hm _ _)
  | refused => exact got_owed _ _
  | borrowed => exact absurd rfl (hc _ _)
  | sent | leave | release => cases ho
  | _ => rfl

/-- A method call keeps what it has to give back to a pool. -/
theorem Transition.carried {m m' : Manager} {stage next : Stage} (g : Transition m stage m' next)
    (hcall : ∀ d resume, stage.move ≠ .call d resume) (hm : m.TakesBack) {h : Handle}
    (hc : stage.carried? = some h) : next.carried? = some h := by
  cases g with
  | refused hs | direct hs | borrow hs => cases hs <;> cases hc
  | sent | leave | release => exact hc
  | left hn => exact absurd hm hn
  | released hn =>
    rcases hn with rfl | hn
    · cases hc
    · exact absurd hm hn
  | returned => exact absurd rfl (hcall _ _)
  | _ => cases hc

end Stage

open Pool (TrackedSystem)

/-- What a caller has to do with the pool, by its stage, its call of the pool and its loan. -/
inductive Keeping (pooling : Bool) (s : TrackedSystem) :
    Stage → Option Nat → Option Nat → Prop where
  /-- It owes the pool nothing. -/
  | free {stage} (ho : pooling = true → stage.owed? = none) : Keeping pooling s stage none none
  /-- It has a handle of a client that the pool has lent to it. -/
  | holding {stage i h} (hh : stage.carried? = some h) (hl : (i, h.client) ∈ s.lent) :
      Keeping pooling s stage none (some i)
  /-- It borrows a client. -/
  | borrowing {t p q i phase} (hi : s.system.phase? i = some phase) (hs : phase.serves true)
      (hd : ∀ c, s.Delivered i c → (i, c) ∈ s.lent) :
      Keeping pooling s (.borrowing t p q) (some i) (some i)
  /-- It gives a client back, or closes the pool. -/
  | calling {stage d resume i phase} (hm : stage.move = .call d resume)
      (hd : ∀ p, d ≠ .borrow p) (hi : s.system.phase? i = some phase)
      (hs : phase.serves false) : Keeping pooling s stage (some i) none

def Caller.Keeps (pooling : Bool) (s : TrackedSystem) (x : Caller) : Prop :=
  Keeping pooling s x.stage x.thread x.loan

namespace Keeping

variable {pooling : Bool} {s t : TrackedSystem} {stage next : Stage} {thread loan : Option Nat}

/-- What happens to others does not matter. -/
theorem follows {settled : Option Nat} (hk : Keeping pooling s stage thread loan)
    (hf : s.Follows t settled) (hn : ∀ i, loan = some i → settled ≠ some i) :
    Keeping pooling t stage thread loan := by
  cases hk with
  | free ho => exact .free ho
  | holding hh hl => exact .holding hh (hf.lent _ _ hl (hn _ rfl))
  | borrowing hi hs hd =>
    obtain ⟨phase, hi', hs'⟩ := hf.serves _ _ _ hi hs
    refine .borrowing hi' hs' fun c hc => ?_
    rcases hf.delivered _ _ c hi hc with h | h
    · exact hf.lent _ _ (hd c h) (hn _ rfl)
    · exact h
  | calling hm hd hi hs =>
    obtain ⟨phase, hi', hs'⟩ := hf.serves _ _ _ hi hs
    exact .calling hm hd hi' hs'

theorem thread_none (hk : Keeping pooling s stage thread loan)
    (hc : ∀ d resume, stage.move ≠ .call d resume) : thread = none := by
  cases hk with
  | free | holding => rfl
  | borrowing => exact absurd rfl (hc _ _)
  | calling hm => exact absurd hm (hc _ _)

/-- A step that does not call the pool keeps this. -/
theorem passed {m m' : Manager} (hk : Keeping pooling s stage thread loan)
    (g : Stage.Transition m stage m' next) (hc : ∀ d resume, stage.move ≠ .call d resume)
    (hm : pooling = true → ∀ t c, m.facade ≠ some ⟨t, .direct c⟩)
    (hl : s.lent ≠ [] → m.TakesBack) : Keeping pooling s next thread loan := by
  cases hk with
  | free ho => exact .free fun hp => g.owed hc (hm hp) (ho hp)
  | holding hh hi => exact .holding (g.carried hc (hl (List.ne_nil_of_mem hi)) hh) hi
  | borrowing => exact absurd rfl (hc _ _)
  | calling hm => exact absurd hm (hc _ _)

/-- How a caller comes to call the pool: it borrows a client, gives its own loan back, or closes the
pool. -/
inductive Calls (s : TrackedSystem) : Stage → Option Nat → Pool.Demand → Pool.Happening → Prop where
  | borrow {t p q} : Calls s (.borrowing t p q) none (.borrow p) (.borrow none)
  | giveBack {h reply i} (hl : (i, h.client) ∈ s.lent) :
      Calls s (.returning h reply) (some i) (.giveBack h.client) (.giveBack (i, h.client))
  | close {whole} : Calls s (.shutting whole) none .close .close

theorem calls {d : Pool.Demand} {resume : Pool.Result → Stage × List Notice}
    (hk : Keeping true s stage none loan) (hm : stage.move = .call d resume) :
    Calls s stage loan d (d.happening s loan) := by
  cases stage with
  | starting e => cases e <;> cases hm
  | borrowing t p q =>
    cases hm
    cases hk with
    | free => exact .borrow
    | holding hh => cases hh
  | returning h reply =>
    cases hm
    cases hk with
    | free ho => cases ho rfl
    | @holding _ i _ hh hl =>
      cases hh
      rw [Pool.Demand.happening, if_pos hl]
      exact .giveBack hl
  | shutting whole =>
    cases hm
    cases hk with
    | free => exact .close
    | holding hh => cases hh
  | _ => cases hm

/-- A caller whose call of the pool has come to its end goes on. -/
theorem cameBack {x : Caller} {d : Pool.Demand} {resume : Pool.Result → Stage × List Notice}
    {i : Nat} {r : Pool.Result} (hk : x.Keeps pooling s) (hm : x.stage.move = .call d resume)
    (ht : x.thread = some i) (hf : s.system.phase? i = some (.finished r)) :
    (x.resumes (resume r).1 r).Keeps pooling s := by
  obtain ⟨e, stage, thread, loan⟩ := x
  cases ht
  change Keeping pooling s stage (some i) loan at hk
  change stage.move = .call d resume at hm
  cases hk with
  | borrowing hi hs hd =>
    cases hm
    cases r with
    | error f => exact .free fun _ => Stage.got_owed _ _
    | ok got =>
      cases got with
      | none => exact .free fun _ => Stage.got_owed _ _
      | some c => exact .holding (Stage.got_carried _ _) (hd c hf)
  | calling hm' hd hi hs =>
    have ho : (resume r).1.owed? = none := by
      cases stage with
      | starting e => cases e <;> cases hm
      | borrowing =>
        cases hm'
        exact absurd rfl (hd _)
      | returning | shutting =>
        cases hm
        rfl
      | _ => cases hm
    cases r with
    | error f => exact .free fun _ => ho
    | ok got => cases got <;> exact .free fun _ => ho

namespace Calls

variable {policy : Pool.Policy} {d : Pool.Demand} {e : Pool.Happening}

/-- The call has started. -/
theorem entered {x : Caller} (hc : Calls s x.stage x.loan d e)
    (st : TrackedSystem.Step policy s e t) :
    (x.calls s.system.threads.length d).Keeps pooling t := by
  obtain ⟨method, stage, thread, loan⟩ := x
  change Calls s stage loan d e at hc
  have begun : ∀ (p : Pool.Patience) (phase : Pool.Phase),
      (s.system.start p phase).phase? s.system.threads.length = some phase := by
    intro p phase
    rw [Pool.System.phase?_start, if_pos rfl]
  cases hc with
  | borrow =>
    cases st with
    | borrow h =>
      refine .borrowing (begun _ _) rfl fun c hd => ?_
      cases (begun _ _).symm.trans hd
  | giveBack =>
    cases st with
    | giveBack h => exact .calling rfl (fun _ => nofun) (begun _ _) rfl
  | close =>
    cases st with
    | close => exact .calling rfl (fun _ => nofun) (begun _ _) rfl

theorem settled (hc : Calls s stage loan d e) {i : Nat} (hi : e.settled? = some i) :
    loan = some i := by
  cases hc with
  | giveBack => exact hi
  | _ => cases hi

theorem fair (hc : Calls s stage loan d e) : s.Fair e := by
  cases hc <;> exact ⟨trivial, trivial⟩

theorem no_offer (hc : Calls s stage loan d e) (c : Pool.Conn) : e ≠ .offer c := by
  cases hc <;> exact nofun

end Calls
end Keeping

namespace ManagerSystem

variable {plan : ManagerPlan} {o o' : ManagerSystem} {h : Happening}

/-- Callers release the handles that they got, and those of a pool once each. -/
def Once : Rule
  | o, .handOver n => o.manager.plan.pooling = true → ∀ x ∈ o.callers[n]?, x.loan ≠ none
  | _, .arrive (.release h) => h = none
  | _, _ => True

instance (o : ManagerSystem) : ∀ h, Decidable (Once o h)
  | .handOver n => inferInstanceAs
    (Decidable (o.manager.plan.pooling = true → ∀ x ∈ o.callers[n]?, x.loan ≠ none))
  | .arrive (.release h) => inferInstanceAs (Decidable (h = none))
  | .arrive (.init ..) | .arrive .handle | .arrive (.command _) | .arrive .closePool
  | .arrive .close | .look _ | .establish .. | .enter _ | .inside _ | .back _ | .sent ..
  | .hungUp .. => isTrue trivial

/-- How many callers have to give back what a borrow delivered. -/
def holders (o : ManagerSystem) (i : Nat) : Nat := o.callers.countP fun x => x.loan == some i

/-- Who has what of the pool. -/
structure Loans (plan : ManagerPlan) (o : ManagerSystem) : Prop where
  custody : o.tracked.Custody
  strangers : o.tracked.strangers = []
  shut : o.tracked.core.closed = true → o.tracked.core.idle = []
  keeping : ∀ (v : Nat) (x : Caller), o.callers[v]? = some x → x.Keeps plan.pooling o.tracked
  /-- No loan has two holders, -/
  apart : ∀ i, o.holders i ≤ 1
  /-- every loan has one, and was delivered; -/
  owned : ∀ i c, (i, c) ∈ o.tracked.lent → o.tracked.Delivered i c ∧ 0 < o.holders i
  /-- and someone waits for every call that goes on. -/
  running : ∀ i q, o.tracked.system.phase? i = some q →
    (∃ r, q = .finished r) ∨ ∃ x ∈ o.callers, x.thread = some i

/-! ## Around a step -/

theorem Loans.distinct (hl : o.Loans plan) {v w : Nat} {x y : Caller}
    (hv : o.callers[v]? = some x) (hw : o.callers[w]? = some y) (hne : v ≠ w) {i : Nat}
    (hx : x.loan = some i) : y.loan ≠ some i := by
  intro hy
  -- take the loan from the one caller: the other one is still counted
  have h1 := hl.apart i
  have h2 := @countP_set_add (fun x => x.loan == some i) _ _ _ hv { x with loan := none }
  simp only [List.countP_cons, List.countP_nil, hx, beq_self_eq_true, if_true] at h2
  have h3 : 0 < (o.callers.set v { x with loan := none }).countP fun x => x.loan == some i := by
    have hw' : (o.callers.set v { x with loan := none })[w]? = some y := by
      rw [put_caller hv, if_neg hne, hw]
    exact List.countP_pos_iff.mpr ⟨y, List.mem_of_getElem? hw', by simp [hy]⟩
  simp only [holders] at h1
  simp at h2
  omega

/-- The pool takes back what it has lent. -/
theorem Loans.takesBack (ho : o.Orderly plan) (ha : o.Accounts) (hn : o.tracked.lent ≠ []) :
    o.manager.TakesBack := by
  cases hp : o.manager.pool? with
  | none =>
    rw [ha.unopened hp] at hn
    exact absurd rfl hn
  | some p => exact ⟨by rw [ho.made]; exact (ho.pool hp).1, by rw [hp]; rfl⟩

/-- A manager with a pool has no client of its own. -/
theorem Orderly.no_client (ho : o.Orderly plan) (hp : plan.pooling = true) (t : Topology)
    (c : ClientId) : o.manager.facade ≠ some ⟨t, .direct c⟩ := by
  intro hf
  have hd : plan.pooling = false := (ho.facade _ hf).2
  cases hp.symm.trans hd

theorem Loans.passed (hl : o.Loans plan) (ho : o.Orderly plan) (ha : o.Accounts) {v : Nat}
    {x : Caller} (hv : o.callers[v]? = some x) {m : Manager} {next : Stage}
    (g : Stage.Transition o.manager x.stage m next)
    (hc : ∀ d resume, x.stage.move ≠ .call d resume) :
    Keeping plan.pooling o.tracked next x.thread x.loan :=
  Keeping.passed (hl.keeping v x hv) g hc ho.no_client (takesBack ho ha)

theorem Loans.calls (hl : o.Loans plan) (ho : o.Orderly plan) {v : Nat} {x : Caller}
    (hv : o.callers[v]? = some x) {d : Pool.Demand} {resume : Pool.Result → Stage × List Notice}
    (hm : x.stage.move = .call d resume) (ht : x.thread = none) {p : ConnectionPool}
    (hp : o.manager.pool? = some p) :
    Keeping.Calls o.tracked x.stage x.loan d (d.happening o.tracked x.loan) := by
  have hk := hl.keeping v x hv
  rw [Caller.Keeps, ht, (ho.pool hp).1] at hk
  exact hk.calls hm

/-- An initialization leaves the pool as it is, or opens it. -/
theorem Accounts.trackedAfter_cases (ha : o.Accounts) {w : World} {hosts : String}
    {password : Value} {options : Options} {r : Except Fault Unit} {s : Site}
    (hi : (Manager.init hosts password options).run ⟨o.manager, w⟩ = (r, s)) :
    o.trackedAfter s.manager = o.tracked ∨ o.tracked = { system := {}, opened := [] } ∧
      ∃ policy, TrackedSystem.JustOpened policy (o.trackedAfter s.manager) := by
  cases hf : o.manager.facade with
  | some f =>
    refine .inl ?_
    simp only [trackedAfter, hf]
  | none =>
    have hfresh : o.tracked = { system := {}, opened := [] } :=
      ha.unopened (by rw [Manager.pool?, hf]; rfl)
    cases Manager.init_attempt hi with
    | failed hm =>
      refine .inl ?_
      rw [hm]
      simp only [trackedAfter, hf, Manager.pool?, Option.bind_none]
    | succeeded hopen hn hm hb he =>
      cases he with
      | direct hp =>
        refine .inl ?_
        rw [hm]
        simp only [trackedAfter, hf, Manager.pool?]
        rfl
      | @pooled p _ _ hp hl hopens hcl hidle =>
        obtain ⟨w₀, w₁, hopens⟩ := hopens
        refine .inr ⟨hfresh, p.policy, World, _, w₀, w₁, p.core, hopens, ?_, ?_⟩
        · refine List.nodup_iff_count.mpr fun c => ?_
          rw [hidle]
          exact List.nodup_iff_count.mp hb.nodup c
        · rw [hm]
          simp only [trackedAfter, hf]
          rfl

/-- No one had anything to do with a pool before it was opened. -/
theorem Accounts.trackedAfter_follows (ha : o.Accounts) {w : World} {hosts : String}
    {password : Value} {options : Options} {r : Except Fault Unit} {s : Site}
    (hi : (Manager.init hosts password options).run ⟨o.manager, w⟩ = (r, s)) :
    o.tracked.Follows (o.trackedAfter s.manager) none := by
  rcases ha.trackedAfter_cases hi with hs | ⟨hs, -⟩
  · rw [hs]
    exact .refl _ _
  · rw [hs]
    refine ⟨fun _ _ h => ?_, fun _ _ _ h => ?_, fun _ _ h => ?_, fun _ _ _ h => ?_⟩ <;> cases h

/-- A pool is followed from step to step. -/
theorem Step.follows (st : Step o h o') (ha : o.Accounts) :
    ∃ settled, o.tracked.Follows o'.tracked settled := by
  cases st with
  | establish hv hm hc he hi => exact ⟨none, ha.trackedAfter_follows hi⟩
  | enter hv hm ht hp st => exact ⟨_, st.follows⟩
  | inside hp hh hc st => exact ⟨_, st.follows⟩
  | _ => exact ⟨none, .refl _ _⟩

/-! ## A step -/

/-- Everything stays in one place. -/
theorem Step.custody (st : Step o h o') (hl : o.Loans plan) (ho : o.Orderly plan)
    (ha : o.Accounts) : o'.tracked.Custody ∧ o'.tracked.strangers = [] := by
  cases st with
  | establish hv hm hc he hi =>
    rcases ha.trackedAfter_cases hi with hs | ⟨-, policy, hj⟩
    · show (o.trackedAfter _).Custody ∧ (o.trackedAfter _).strangers = []
      rw [hs]
      exact ⟨hl.custody, hl.strangers⟩
    · refine ⟨.opening hj, ?_⟩
      obtain ⟨idle, -, -, hs⟩ := hj.shape
      exact congrArg TrackedSystem.strangers hs
  | enter hv hm ht hp st =>
    have hc := hl.calls ho hv hm ht hp
    exact ⟨hl.custody.step hc.fair st, (st.strangers hc.no_offer).trans hl.strangers⟩
  | @inside p e tracked hp hh hc st =>
    -- a client that is supplied has a number that no other one had
    have hfair : o.tracked.Fair e := by
      cases e with
      | supplied i c =>
        refine ⟨⟨fun hmem => ?_, ?_⟩, trivial⟩
        · have := ha.numbered c hmem
          rw [hc i c rfl] at this
          exact Nat.lt_irrefl _ this
        · rw [hl.strangers]
          exact nofun
      | offer => cases hh
      | _ => exact ⟨trivial, trivial⟩
    have hn : ∀ c, e ≠ .offer c := by
      rintro c rfl
      cases hh
    exact ⟨hl.custody.step hfair st, (st.strangers hn).trans hl.strangers⟩
  | _ => exact ⟨hl.custody, hl.strangers⟩

theorem Step.nothing_idle (st : Step o h o') (hl : o.Loans plan) (ha : o.Accounts) :
    o'.tracked.core.closed = true → o'.tracked.core.idle = [] := by
  cases st with
  | establish hv hm hc he hi =>
    show (o.trackedAfter _).core.closed = true → (o.trackedAfter _).core.idle = []
    rcases ha.trackedAfter_cases hi with hs | ⟨-, policy, hj⟩
    · rw [hs]
      exact hl.shut
    · obtain ⟨idle, -, -, hs⟩ := hj.shape
      rw [hs]
      exact nofun
  | enter hv hm ht hp st => exact st.shut_idle hl.shut
  | inside hp hh hc st => exact st.shut_idle hl.shut
  | _ => exact hl.shut

/-- A caller changes, and the pool perhaps with it. -/
theorem Loans.keeping_set (hl : o.Loans plan) {v : Nat} {x : Caller} (hv : o.callers[v]? = some x)
    {s : TrackedSystem} {settled : Option Nat} (hf : o.tracked.Follows s settled)
    (hs : ∀ i, settled = some i → x.loan = some i) {y : Caller} (hy : y.Keeps plan.pooling s) :
    ∀ (w : Nat) (z : Caller), (o.callers.set v y)[w]? = some z → z.Keeps plan.pooling s := by
  intro w z hz
  rw [put_caller hv] at hz
  split at hz
  · cases hz
    exact hy
  · rename_i hne
    -- whoever else has a loan, it is another one
    refine Keeping.follows (hl.keeping w z hz) hf fun i hi hsi => ?_
    exact hl.distinct hv hz hne (hs i hsi) hi

theorem getElem?_append_one {callers : List Caller} {x y : Caller} {w : Nat}
    (h : (callers ++ [x])[w]? = some y) : callers[w]? = some y ∨ y = x := by
  rw [List.getElem?_append] at h
  split at h
  · exact .inl h
  · rw [List.getElem?_singleton] at h
    split at h
    · cases h
      exact .inr rfl
    · cases h

theorem Step.keeping (st : Step o h o') (hr : Once o h) (hl : o.Loans plan) (ho : o.Orderly plan)
    (ha : o.Accounts) : ∀ (w : Nat) (z : Caller), o'.callers[w]? = some z →
      z.Keeps plan.pooling o'.tracked := by
  have here : ∀ {s : TrackedSystem}, o.tracked.Follows s none →
      ∀ {v : Nat} {x : Caller} (y : Caller),
      o.callers[v]? = some x → y.Keeps plan.pooling s →
      ∀ (w : Nat) (z : Caller), (o.callers.set v y)[w]? = some z → z.Keeps plan.pooling s :=
    fun hf _ _ y hv hy => hl.keeping_set hv hf (fun _ h => nomatch h) hy
  cases st with
  | @arrive e =>
    intro w z hz
    rcases getElem?_append_one hz with hz | rfl
    · exact hl.keeping w z hz
    · refine .free fun _ => ?_
      cases e with
      | release h => exact hr
      | _ => rfl
  | @handOver n x g hn hh =>
    have hk := hl.keeping n x hn
    have ht : x.thread = none := Keeping.thread_none hk fun d resume hm => by
      rw [hh] at hm
      cases hm
    have hx : Caller.Keeps plan.pooling o.tracked { x with loan := none } := by
      rw [Caller.Keeps, hh, ht]
      exact .free fun _ => rfl
    intro w z hz
    rcases getElem?_append_one hz with hz | rfl
    · exact here (.refl _ _) _ hn hx w z hz
    · -- the loan passes on to whoever releases the handle
      show Keeping plan.pooling o.tracked (.starting (.release (some g))) none x.loan
      cases hloan : x.loan with
      | none =>
        refine .free fun hp => ?_
        rw [← ho.made] at hp
        exact absurd hloan (hr hp x hn)
      | some i =>
        rw [Caller.Keeps, hh, ht, hloan] at hk
        cases hk with
        | holding hc hi =>
          cases hc
          exact .holding rfl hi
  | @look v x f hv hm =>
    exact here (.refl _ _) _ hv (hl.passed ho ha hv (Stage.transition_of_look hm _)
      (Stage.ne_call hm nofun))
  | @establish v x w _ _ _ r s hv hm hc he hi =>
    have hy := hl.passed ho ha hv (Stage.transition_of_establish hm hi) (Stage.ne_call hm nofun)
    have hf := ha.trackedAfter_follows hi
    exact here hf { x with stage := .ended (.done r) } hv (hy.follows hf fun i _ h => nomatch h)
  | enter hv hm ht hp st =>
    have hc := hl.calls ho hv hm ht hp
    exact hl.keeping_set hv st.follows (fun i => hc.settled) (hc.entered st)
  | @inside p e tracked hp hh hc st =>
    intro w z hz
    refine Keeping.follows (hl.keeping w z hz) st.follows fun i _ h => ?_
    cases e with
    | giveBack => cases hh
    | _ => cases h
  | @back v x d resume i r hv hm ht hf =>
    exact here (.refl _ _) _ hv (Keeping.cameBack (hl.keeping v x hv) hm ht hf)
  | sent hv hm =>
    exact here (.refl _ _) _ hv (hl.passed ho ha hv (Stage.transition_of_send hm _ _)
      (Stage.ne_call hm nofun))
  | hungUp hv hm =>
    exact here (.refl _ _) _ hv (hl.passed ho ha hv (Stage.transition_of_hangUp hm _ _)
      (Stage.ne_call hm nofun))

theorem holders_set (i : Nat) {v : Nat} {x : Caller} (hv : o.callers[v]? = some x) (y : Caller) :
    ((o.callers.set v y).countP fun x => x.loan == some i) + (if x.loan = some i then 1 else 0) =
      o.holders i + if y.loan = some i then 1 else 0 := by
  have h := @countP_set_add (fun x => x.loan == some i) _ _ _ hv y
  simpa [holders, List.countP_cons] using h

/-- A caller that changes keeps its loan, or has none any more. -/
theorem holders_set_le (i : Nat) {v : Nat} {x y : Caller} (hv : o.callers[v]? = some x)
    (hy : y.loan = x.loan ∨ y.loan = none) :
    ((o.callers.set v y).countP fun x => x.loan == some i) ≤ o.holders i := by
  have h := holders_set i hv y
  rcases hy with hy | hy
  · rw [hy] at h
    omega
  · simp only [hy, reduceCtorEq, if_false] at h
    omega

theorem Loans.fresh_loan (hl : o.Loans plan) : o.holders o.tracked.system.threads.length = 0 := by
  refine List.countP_eq_zero.mpr fun x hx => ?_
  obtain ⟨v, hv⟩ := List.mem_iff_getElem?.mp hx
  have hk := hl.keeping v x hv
  have known : ∀ {i : Nat} {q : Pool.Phase}, o.tracked.system.phase? i = some q →
      i ≠ o.tracked.system.threads.length :=
    fun h => Nat.ne_of_lt (Pool.System.lt_of_phase? h)
  obtain ⟨e, stage, thread, loan⟩ := x
  change Keeping plan.pooling o.tracked stage thread loan at hk
  cases hk with
  | free | calling => simp
  | holding hh hi => simpa using known (hl.owned _ _ hi).1
  | borrowing hi => simpa using known hi

theorem Step.apart (st : Step o h o') (hl : o.Loans plan) (i : Nat) :
    o'.holders i ≤ 1 := by
  have h1 := hl.apart i
  cases st with
  | arrive =>
    show (o.callers ++ [_]).countP _ ≤ 1
    simpa [List.countP_append, holders] using h1
  | @handOver n x g hn hh =>
    have h2 := holders_set i hn { x with loan := none }
    show (List.set _ _ _ ++ [_]).countP _ ≤ 1
    rw [List.countP_append]
    simp [List.countP_cons] at h2 ⊢
    omega
  | look hv | establish hv | sent hv | hungUp hv =>
    exact Nat.le_trans (holders_set_le i hv (.inl rfl)) h1
  | @enter v x d resume p tracked hv hm ht hp st =>
    have h2 := holders_set i hv (x.calls o.tracked.system.threads.length d)
    have h3 := hl.fresh_loan
    show (o.callers.set _ _).countP _ ≤ 1
    by_cases hi : i = o.tracked.system.threads.length
    · subst hi
      split at h2 <;> split at h2 <;> omega
    · have hn : (x.calls o.tracked.system.threads.length d).loan ≠ some i := by
        cases d with
        | borrow => simpa [Caller.calls] using Ne.symm hi
        | _ => exact nofun
      rw [if_neg hn] at h2
      omega
  | inside => exact h1
  | @back v x d resume j r hv hm ht hf =>
    refine Nat.le_trans (holders_set_le i hv ?_) h1
    cases r with
    | error => exact .inr rfl
    | ok got => cases got <;> first | exact .inl rfl | exact .inr rfl

/-- A caller that changes keeps its loan, or had another one. -/
theorem le_holders_set (i : Nat) {v : Nat} {x y : Caller} (hv : o.callers[v]? = some x)
    (hy : y.loan = x.loan ∨ x.loan ≠ some i) :
    o.holders i ≤ (o.callers.set v y).countP fun x => x.loan == some i := by
  have h := holders_set i hv y
  rcases hy with hy | hy
  · rw [hy] at h
    omega
  · rw [if_neg hy] at h
    omega

/-- A call of the pool that starts leaves every loan with its holder, but for the one that it gives
back. -/
theorem Loans.entered (hl : o.Loans plan) {v : Nat} {x : Caller} (hv : o.callers[v]? = some x)
    {policy : Pool.Policy} {d : Pool.Demand} {e : Pool.Happening} {s : TrackedSystem}
    (hc : Keeping.Calls o.tracked x.stage x.loan d e)
    (st : TrackedSystem.Step policy o.tracked e s) (n i : Nat) (c : Pool.Conn)
    (hi : (i, c) ∈ s.lent) : o.tracked.Delivered i c ∧
      0 < (o.callers.set v (x.calls n d)).countP fun x => x.loan == some i := by
  have held : x.loan ≠ some i → (i, c) ∈ o.tracked.lent → o.tracked.Delivered i c ∧
      0 < (o.callers.set v (x.calls n d)).countP fun x => x.loan == some i := by
    intro hn hmem
    obtain ⟨hd, hpos⟩ := hl.owned i c hmem
    exact ⟨hd, Nat.lt_of_lt_of_le hpos (le_holders_set i hv (.inr hn))⟩
  generalize hloan : x.loan = loan at hc held
  generalize x.stage = stage at hc
  cases hc with
  | borrow =>
    cases st with
    | borrow => exact held nofun hi
  | close =>
    cases st with
    | close => exact held nofun hi
  | @giveBack g reply j hg =>
    cases st with
    | giveBack =>
      have hmem := List.mem_of_mem_erase hi
      refine held (fun hj => ?_) hmem
      -- one call delivers one connection, and that is lent no more
      cases hj
      cases (hl.owned _ _ hmem).1.symm.trans (hl.owned _ _ hg).1
      have hnodup : o.tracked.lent.Nodup := by
        refine List.Nodup.of_map (·.2) (List.nodup_iff_count.mpr fun c => ?_)
        have := hl.custody.lentOut_le c
        simp only [TrackedSystem.lentOut] at this
        omega
      exact hnodup.not_mem_erase hi

/-- A call of the pool that goes on may deliver something, and then to a caller that borrows. -/
theorem Loans.inside (hl : o.Loans plan) {policy : Pool.Policy} {e : Pool.Happening}
    {s : TrackedSystem} (st : TrackedSystem.Step policy o.tracked e s)
    (hh : e.thread?.isSome = true) (i : Nat) (c : Pool.Conn)
    (hi : (i, c) ∈ s.lent) : s.Delivered i c ∧ 0 < o.holders i := by
  obtain ⟨j, hj⟩ := Option.isSome_iff_exists.mp hh
  rcases (st.lent hj i c).mp hi with hi | ⟨hd, hn⟩
  · obtain ⟨hd, hpos⟩ := hl.owned i c hi
    exact ⟨st.delivered hd, hpos⟩
  · refine ⟨hd, ?_⟩
    -- the call was in progress, so someone waits for it, and it serves who borrows
    obtain ⟨q, hq⟩ := st.started hh hd
    rcases hl.running i q hq with ⟨r, rfl⟩ | ⟨x, hx, ht⟩
    · cases hd.symm.trans (st.finished hq)
      exact absurd hq hn
    · obtain ⟨v, hv⟩ := List.mem_iff_getElem?.mp hx
      have hk := hl.keeping v x hv
      obtain ⟨method, stage, thread, loan⟩ := x
      cases ht
      change Keeping plan.pooling o.tracked stage (some i) loan at hk
      cases hk with
      | borrowing => exact List.countP_pos_iff.mpr ⟨_, hx, by simp⟩
      | calling hm hnb hphase hs =>
        obtain ⟨next, hn, hs⟩ := st.serves hphase hs
        cases hd.symm.trans hn
        cases hs

theorem Step.owned (st : Step o h o') (hl : o.Loans plan) (ho : o.Orderly plan)
    (ha : o.Accounts) (i : Nat) (c : Pool.Conn) (hi : (i, c) ∈ o'.tracked.lent) :
    o'.tracked.Delivered i c ∧ 0 < o'.holders i := by
  have same : (i, c) ∈ o.tracked.lent → o.holders i ≤ o'.holders i →
      o.tracked.Delivered i c ∧ 0 < o'.holders i := by
    intro hi hle
    obtain ⟨hd, hpos⟩ := hl.owned i c hi
    exact ⟨hd, Nat.lt_of_lt_of_le hpos hle⟩
  cases st with
  | arrive =>
    refine same hi ?_
    show _ ≤ (o.callers ++ [_]).countP _
    rw [List.countP_append]
    exact Nat.le_add_right _ _
  | @handOver n x g hn hh =>
    refine same hi ?_
    have h := holders_set i hn { x with loan := none }
    show _ ≤ (List.set _ _ _ ++ [_]).countP _
    rw [List.countP_append]
    simp [List.countP_cons] at h ⊢
    omega
  | look hv | sent hv | hungUp hv => exact same hi (le_holders_set i hv (.inl rfl))
  | @establish v x w _ _ _ r s hv hm hc he hinit =>
    change (i, c) ∈ (o.trackedAfter s.manager).lent at hi
    show (o.trackedAfter s.manager).Delivered i c ∧ _
    rcases ha.trackedAfter_cases hinit with hs | ⟨-, policy, hj⟩
    · rw [hs] at hi ⊢
      exact same hi (le_holders_set i hv (.inl rfl))
    · obtain ⟨idle, -, -, hs⟩ := hj.shape
      rw [hs] at hi
      cases hi
  | enter hv hm ht hp st =>
    obtain ⟨hd, hpos⟩ := hl.entered hv (hl.calls ho hv hm ht hp) st _ i c hi
    exact ⟨st.follows.finished _ _ hd, hpos⟩
  | inside hp hh hc st => exact hl.inside st hh i c hi
  | @back v x d resume j r hv hm ht hf =>
    refine same hi (le_holders_set i hv ?_)
    by_cases hloan : x.loan = some i
    · refine .inl ?_
      -- the caller comes back with what its borrow delivered
      have hk := hl.keeping v x hv
      obtain ⟨method, stage, thread, loan⟩ := x
      cases ht
      cases hloan
      change Keeping plan.pooling o.tracked stage (some j) (some i) at hk
      cases hk with
      | borrowing =>
        cases hf.symm.trans (hl.owned _ _ hi).1
        rfl
    · exact .inr hloan

/-- Someone waits for every call of the pool until it is finished. -/
theorem Step.running (st : Step o h o') (ha : o.Accounts)
    (hrun : ∀ i q, o.tracked.system.phase? i = some q →
      (∃ r, q = .finished r) ∨ ∃ x ∈ o.callers, x.thread = some i)
    (i : Nat) (q : Pool.Phase) (hi : o'.tracked.system.phase? i = some q) :
    (∃ r, q = .finished r) ∨ ∃ x ∈ o'.callers, x.thread = some i := by
  obtain ⟨settled, hfollows⟩ := st.follows ha
  -- a call that went on before the step
  have before : ∀ {q₀ : Pool.Phase}, o.tracked.system.phase? i = some q₀ →
      (∃ r, q = .finished r) ∨ ∃ x ∈ o'.callers, x.thread = some i := by
    intro q₀ hq
    have ended : ∀ r, o.tracked.system.phase? i = some (.finished r) → ∃ r, q = .finished r :=
      fun r hr => ⟨r, Option.some.inj (hi.symm.trans (hfollows.finished i r hr))⟩
    rcases hrun i q₀ hq with ⟨r, rfl⟩ | ⟨x, hx, ht⟩
    · exact .inl (ended r hq)
    · obtain ⟨v, hv⟩ := List.mem_iff_getElem?.mp hx
      obtain ⟨x', hx', hadv⟩ := st.caller hv
      have hx' := List.mem_of_getElem? hx'
      cases hadv with
      | same | handedOver | passed => exact .inr ⟨_, hx', ht⟩
      | entered hm hnone => cases ht.symm.trans hnone
      | cameBack hm ht' hf =>
        cases ht.symm.trans ht'
        exact .inl (ended _ hf)
  cases st with
  | @establish v x w _ _ _ r s hv hm hc he hinit =>
    change (o.trackedAfter s.manager).system.phase? i = some q at hi
    rcases ha.trackedAfter_cases hinit with hs | ⟨-, policy, hj⟩
    · rw [hs] at hi
      exact before hi
    · obtain ⟨idle, -, -, hs⟩ := hj.shape
      rw [hs] at hi
      cases hi
  | @enter v x d _ p tracked hv hm ht hp hst =>
    change tracked.system.phase? i = some q at hi
    obtain ⟨patience, hs⟩ := Pool.Demand.starts hst
    rw [hs, Pool.System.phase?_start] at hi
    split at hi
    · rename_i hlen
      refine .inr ⟨_, List.mem_of_getElem? ((put_caller hv _ v).trans (if_pos rfl)), ?_⟩
      rw [hlen]
      rfl
    · exact before hi
  | inside hp hh hc st =>
    obtain ⟨q₀, hq⟩ := st.started hh hi
    exact before hq
  | _ => exact before hi

theorem Step.loans (st : Step o h o') (hr : Once o h) (hl : o.Loans plan) (ho : o.Orderly plan)
    (ha : o.Accounts) : o'.Loans plan :=
  ⟨(st.custody hl ho ha).1, (st.custody hl ho ha).2, st.nothing_idle hl ha,
    st.keeping hr hl ho ha, st.apart hl, st.owned hl ho ha, st.running ha hl.running⟩

theorem fresh_loans (plan : ManagerPlan) : (fresh plan).Loans plan := by
  refine ⟨⟨fun _ => rfl, List.nodup_nil, fun _ => rfl, fun _ _ => rfl, nofun, nofun⟩, rfl,
    nofun, fun v x hv => ?_, fun i => Nat.zero_le _, fun i c hi => ?_, fun i q hi => ?_⟩
  · cases hv
  · cases hi
  · cases hi

theorem Reachable.loans (hr : Reachable plan Once o) : o.Loans plan := by
  have both : o.Accounts ∧ o.Loans plan :=
    hr.keeps ⟨fresh_accounts plan, fresh_loans plan⟩
      fun ho hr st hk => ⟨st.accounts hk.1, st.loans hr hk.2 ho hk.1⟩
  exact both.2

end ManagerSystem
end RedisGateway
