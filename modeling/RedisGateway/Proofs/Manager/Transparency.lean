import RedisGateway.Proofs.Manager.Forwarding
import RedisGateway.Proofs.Manager.Making
import RedisGateway.Proofs.Pool.Serving

/-!
Callers cannot tell a manager with a pool from one with a single client. Both always have a handle
for a command, so the results follow from what the commands come to, and what is forwarded follows
from what is asked for.
-/

namespace RedisGateway

/-! ## What a call of an executor amounts to -/

/-- A call of an executor, whatever names its category and whatever its arguments are. -/
structure Invocation where
  category : Value
  name : String
  args : List Value
  named : Fields

/-- What a call of an executor amounts to. -/
inductive Job where
  | sends (call : Call)
  /-- It fails before a handle is taken. -/
  | fails (f : Fault)
  /-- It fails with a handle in hand, through which nothing is sent. -/
  | failsWithin (f : Fault)

namespace Job

open Manager (withHandle)

def run : Job → Act Site Value
  | sends call => Manager.execute call
  | fails f => throw f
  | failsWithin f => withHandle fun _ => throw f

/-- The call that is to be sent. -/
def call? : Job → Option Call
  | sends call => some call
  | fails _ | failsWithin _ => none

/-- What the caller gets, given what the call that is sent comes to. -/
def answer (j : Job) (outcome : Outcome) : Except Fault Value :=
  match j with
  | sends call => Manager.resultOf call.command outcome
  | fails f | failsWithin f => .error f

/-- What is sent, and what it comes to: nothing, if no handle can be had. -/
def exchange (j : Job) (s : Site) : Option (Call × Outcome) :=
  match j, Manager.handle.run s with
  | sends call, (.ok h, s) => some (call, (s.world.remote.send h.client call).1)
  | _, _ => none

end Job

namespace Invocation

def issue (i : Invocation) : Act Site Value := Manager.command i.category i.name i.args i.named

/-- What the call amounts to depends on the call alone. -/
def job (i : Invocation) : Job :=
  match Category.ofValue? i.category with
  | none => .fails (.unknownCategory i.category)
  | some c => match ExecutorMember.find? c i.name with
    | none => .fails .noSuchCommand
    | some .attribute => .fails .argumentMismatch
    | some .sender => match Command.given? i.args i.named with
      | none => .fails .argumentMismatch
      | some (.text command, arguments, keywords) => .sends { command, arguments, keywords }
      | some _ => .failsWithin .argumentMismatch
    | some (.command c) => match c.bind i.args i.named with
      | .ok call => .sends call
      | .error f => .fails f

/-- The manager has made the executor, if there is such a one and it had not done so before. -/
def prepared (i : Invocation) (s : Site) : Site :=
  match Category.ofValue? i.category with
  | none => s
  | some c =>
    { s with manager := { s.manager with registry := (s.manager.registry.obtain c).2 } }

theorem issue_run (i : Invocation) (s : Site) : i.issue.run s = i.job.run.run (i.prepared s) := by
  unfold issue Manager.command job prepared
  rw [Act.run_bind, Manager.executor_run]
  cases Category.ofValue? i.category with
  | none => rfl
  | some c =>
    simp only [Manager.obtain_category]
    cases ExecutorMember.find? c i.name with
    | none => rfl
    | some m =>
      cases m with
      | «attribute» => rfl
      | sender =>
        simp only [Manager.executeGiven]
        cases Command.given? i.args i.named with
        | none => rfl
        | some given =>
          obtain ⟨command, arguments, keywords⟩ := given
          cases command <;> rfl
      | command c =>
        simp only
        cases c.bind i.args i.named <;> rfl

/-- What is sent, and what it comes to. -/
def exchange (i : Invocation) (s : Site) : Option (Call × Outcome) := i.job.exchange (i.prepared s)

/-- The manager after calls in turn. -/
def issueAll (is : List Invocation) (s : Site) : Site := is.foldl (fun s i => (i.issue.run s).2) s

/-- What callers get for calls in turn. -/
def results : List Invocation → Site → List (Except Fault Value)
  | [], _ => []
  | i :: is, s => (i.issue.run s).1 :: results is (i.issue.run s).2

/-- What calls in turn send, with what it comes to. -/
def exchanges : List Invocation → Site → List (Call × Outcome)
  | [], _ => []
  | i :: is, s => (i.exchange s).toList ++ exchanges is (i.issue.run s).2

end Invocation

/-! ## What is forwarded -/

/-- What is recorded of a call that is sent. There is one that closes the client. -/
def Event.sent (c : ClientId) (call : Call) : Event :=
  if call.command = Remote.closingCommand && call.arguments.isEmpty && call.keywords.isEmpty then
    .closed c
  else .called c call

/-- Events, latest first, in which these calls were sent in turn through whatever clients, with
nothing between them but certain events. -/
inductive Event.Forward (own : Event → Prop) : List Call → List Event → Prop
  | quiet {news} (h : ∀ e ∈ news, own e) : Forward own [] news
  | sent {calls news client call after} (h : Forward own calls news) (ha : ∀ e ∈ after, own e) :
      Forward own (calls ++ [call]) (after ++ .sent client call :: news)

open Event (Forward)

variable {own : Event → Prop}

theorem Event.Forward.later {calls : List Call} {news after : List Event}
    (h : Forward own calls news) (ha : ∀ e ∈ after, own e) : Forward own calls (after ++ news) := by
  have both : ∀ {es fs : List Event}, (∀ e ∈ es, own e) → (∀ e ∈ fs, own e) →
      ∀ e ∈ es ++ fs, own e := by
    intro es fs hes hfs e he
    rcases List.mem_append.mp he with he | he
    · exact hes e he
    · exact hfs e he
  cases h with
  | quiet hn => exact .quiet (both ha hn)
  | sent h hs =>
    rw [← List.append_assoc]
    exact .sent h (both ha hs)

theorem Event.Forward.append {calls more : List Call} {news later : List Event}
    (h : Forward own calls news) (h' : Forward own more later) :
    Forward own (calls ++ more) (later ++ news) := by
  induction h' with
  | quiet hu =>
    rw [List.append_nil]
    exact h.later hu
  | @sent more later client call after _ ha ih =>
    rw [← List.append_assoc calls, List.append_assoc after, List.cons_append]
    exact .sent ih ha

namespace Remote

/-- The remote side opens every client that it is asked for. -/
structure Welcoming (r : Remote) : Prop where
  refusal : r.refusal = none
  upcoming : ∀ next ∈ r.upcoming, next = none

/-- What concerns the opening of clients is the same. -/
structure SameEntrance (r r' : Remote) : Prop where
  opened : r'.opened = r.opened
  refusal : r'.refusal = r.refusal
  upcoming : r'.upcoming = r.upcoming

theorem SameEntrance.welcoming {r r' : Remote} (h : r.SameEntrance r') (hw : r.Welcoming) :
    r'.Welcoming :=
  ⟨h.refusal.trans hw.refusal, h.upcoming ▸ hw.upcoming⟩

theorem takeReply_entrance (r : Remote) (command : String) :
    r.SameEntrance (r.takeReply command).2 := by
  unfold takeReply
  split <;> exact ⟨rfl, rfl, rfl⟩

/-- Whatever is sent is recorded, and leaves the entrance alone. -/
theorem send_spec (c : ClientId) (call : Call) (r : Remote) :
    (r.send c call).2.events = .sent c call :: r.events ∧ r.SameEntrance (r.send c call).2 := by
  unfold send Event.sent
  split
  · exact ⟨rfl, rfl, rfl, rfl⟩
  · have ht := takeReply_entrance (r.record (.called c call)) call.command
    have he := takeReply_events (r.record (.called c call)) call.command
    dsimp only
    split
    · split
      · exact ⟨rfl, rfl, rfl, rfl⟩
      · exact ⟨he, ht.opened, ht.refusal, ht.upcoming⟩
    · exact ⟨he, ht.opened, ht.refusal, ht.upcoming⟩

/-- A welcoming remote side opens a client and stays so. -/
theorem openClient_welcoming (request : ClientRequest) {r : Remote} (hw : r.Welcoming) :
    (∃ c, (r.openClient request).1 = .ok c) ∧ (r.openClient request).2.Welcoming := by
  have hn : ∃ t, r.nextRefusal = (none, t) ∧ t.Welcoming := by
    obtain ⟨hr, hu⟩ := hw
    unfold nextRefusal
    split
    · rename_i next rest heq
      rw [heq] at hu
      exact ⟨{ r with upcoming := rest }, by rw [hu next List.mem_cons_self], hr,
        fun n hn => hu n (List.mem_cons_of_mem _ hn)⟩
    · rename_i heq
      exact ⟨r, by rw [hr], hr, hu⟩
  obtain ⟨t, hn, ht⟩ := hn
  simp only [openClient, hn]
  exact ⟨⟨_, rfl⟩, ht.refusal, ht.upcoming⟩

end Remote

theorem ConnectionPool.surroundings_generous (request : ClientRequest) :
    (surroundings request).Generous fun w => w.remote.Welcoming := by
  refine ⟨fun hw => (Remote.openClient_welcoming request hw).1, fun {r w} hw => ?_,
    fun {ns w} hw => ?_⟩
  · cases r with
    | supply => exact (Remote.openClient_welcoming request hw).2
    | ping c => exact (Remote.send_spec c { command := "ping" } w.remote).2.welcoming hw
    | close c => exact ⟨hw.refusal, hw.upcoming⟩
  · exact (World.noteAll_remote w ns).symm ▸ hw

/-- How long a borrower waits can be told if the limit can be. -/
theorem Pool.Limits.patience_ok {l : Limits}
    (h : 0 ≤ l.maxWaitMs → Binary64.exceedsRange l.maxWaitMs = false) :
    ∃ p, l.patience none = .ok p := by
  unfold patience
  by_cases hn : l.maxWaitMs < 0
  · exact ⟨.endless, if_pos hn⟩
  · have hr := h (by omega)
    exact ⟨_, by rw [if_neg hn, hr]; rfl⟩

/-- The only connection in use is taken back: then nothing is, in a pool that is open as before. -/
theorem Pool.Rest.giveBack_last {σ : Type} {around : Pool.Surroundings σ}
    {known : σ → Pool.Conn → Prop} {good : σ → Prop} {policy : Pool.Policy} {core : Pool.Core}
    {w : σ} {c : Pool.Conn}
    (hk : around.Inventive known) (hg : around.Generous good) (hr : Pool.Rest (known w) core)
    (hw : good w) (hu : ∀ d, core.inUse.count d = [c].count d) (ho : core.closed = false) :
    ∃ core' w', Pool.giveBack around policy c core w = (.ok none, core', w') ∧
      Pool.Rest (known w') core' ∧ core'.inUse = [] ∧ core'.closed = false ∧ good w' := by
  have hmem : c ∈ core.inUse := by
    refine List.count_pos_iff.mp ?_
    rw [hu, List.count_singleton_self]
    exact Nat.one_pos
  obtain ⟨back, core', w', hrun⟩ : ∃ back core' w', Pool.giveBack around policy c core w =
      (back, core', w') := ⟨_, _, _, rfl⟩
  have hback := hr.giveBack_ok policy hk hmem
  have hopen := @Pool.run_stays_open policy .endless _ around good hg (.accepting c) nofun
    core.callBound core w hw
  rw [show (Pool.Phase.accepting c).run around policy .endless core.callBound core w = _ from hrun]
    at hopen
  obtain ⟨hr', hin⟩ := hr.giveBack hk hmem hrun
  rw [hrun] at hback
  cases (hback : back = _)
  refine ⟨core', w', hrun, hr', List.eq_nil_iff_forall_not_mem.mpr fun d hd => ?_,
    hopen.1.trans ho, hopen.2⟩
  have h1 := List.count_pos_iff.mpr hd
  have h2 := hin d
  have h3 := hu d
  omega

/-! ## Managers that serve every call -/

namespace Manager

/-- A body that leaves the manager and the entrance of the remote side alone. -/
structure Leaves (s s' : Site) : Prop where
  manager : s'.manager = s.manager
  entrance : s.world.remote.SameEntrance s'.world.remote

/-- As long as something is kept there is a handle for every body, and what the body comes to
stands. Besides what the body does there are events of the manager's own only. -/
structure Serving (kept : Site → Prop) (own : Event → Prop) : Prop where
  registry : ∀ {s} registry, kept s → kept { s with manager := { s.manager with registry } }
  handle : ∀ {s}, kept s → ∃ h s₁ before, handle.run s = (.ok h, s₁) ∧
    s₁.world.remote.events = before ++ s.world.remote.events ∧ (∀ e ∈ before, own e) ∧
    ∀ {body : Act Site Value} {r s₂}, body.run s₁ = (r, s₂) → Leaves s₁ s₂ →
      ∃ s' after, (thenAlways body (release (some h))).run s₁ = (r, s') ∧ kept s' ∧
        s'.world.remote.events = after ++ s₂.world.remote.events ∧ ∀ e ∈ after, own e

/-- What a job comes to where every job is served. -/
structure Done (kept : Site → Prop) (own : Event → Prop) (j : Job) (s : Site) (outcome : Outcome) :
    Prop where
  result : (j.run.run s).1 = j.answer outcome
  exchange : j.exchange s = j.call?.map fun call => (call, outcome)
  kept : kept (j.run.run s).2
  events : ∃ news, (j.run.run s).2.world.remote.events = news ++ s.world.remote.events ∧
    Forward own j.call?.toList news

namespace Serving

variable {kept : Site → Prop} {s : Site}

theorem withHandle (hs : Serving kept own) (hk : kept s) {body : Handle → Act Site Value} :
    ∃ h s₁ before, Manager.handle.run s = (.ok h, s₁) ∧
      s₁.world.remote.events = before ++ s.world.remote.events ∧ (∀ e ∈ before, own e) ∧
      ∀ {r s₂}, (body h).run s₁ = (r, s₂) → Leaves s₁ s₂ →
        ∃ s' after, (Manager.withHandle body).run s = (r, s') ∧ kept s' ∧
          s'.world.remote.events = after ++ s₂.world.remote.events ∧ ∀ e ∈ after, own e := by
  obtain ⟨h, s₁, before, hh, he, hb, hbody⟩ := hs.handle hk
  refine ⟨h, s₁, before, hh, he, hb, fun hr hl => ?_⟩
  obtain ⟨s', after, hrun, hk', ha, ho⟩ := hbody hr hl
  refine ⟨s', after, ?_, hk', ha, ho⟩
  rw [Manager.withHandle, Act.run_bind, hh]
  exact hrun

/-- Every job is done. -/
theorem job (hs : Serving kept own) (hk : kept s) (j : Job) :
    ∃ outcome, Done kept own j s outcome := by
  cases j with
  | sends call =>
    obtain ⟨h, s₁, before, hh, he, hb, hbody⟩ := hs.withHandle hk
    obtain ⟨s₂, hx, hm, hw⟩ := exchange_run h call s₁
    obtain ⟨hsent, hsame⟩ := Remote.send_spec h.client call s₁.world.remote
    obtain ⟨s', after, hrun, hk', ha, ho⟩ := hbody hx ⟨hm, hw ▸ hsame⟩
    have hj : (Job.sends call).run.run s =
        (resultOf call.command (s₁.world.remote.send h.client call).1, s') := hrun
    refine ⟨(s₁.world.remote.send h.client call).1, ?_, ?_, ?_, ?_⟩
    · rw [hj]
      rfl
    · simp only [Job.exchange, hh]
      rfl
    · rw [hj]
      exact hk'
    · rw [hj]
      refine ⟨after ++ .sent h.client call :: before, ?_, .sent (.quiet hb) ho⟩
      rw [ha, hw, hsent, he, List.append_assoc]
      rfl
  | fails f => exact ⟨.ok .none, rfl, rfl, hk, [], rfl, .quiet nofun⟩
  | failsWithin f =>
    obtain ⟨h, s₁, before, hh, he, hb, hbody⟩ := hs.withHandle hk
    obtain ⟨s', after, hrun, hk', ha, ho⟩ := hbody rfl ⟨rfl, rfl, rfl, rfl⟩
    have hj : (Job.failsWithin f).run.run s = (.error f, s') := hrun
    refine ⟨.ok .none, ?_, rfl, ?_, ?_⟩
    · rw [hj]
      rfl
    · rw [hj]
      exact hk'
    · rw [hj]
      refine ⟨after ++ before, by rw [ha, he, List.append_assoc], ?_⟩
      exact Event.Forward.later (.quiet hb) ho

end Serving

/-! ## A single client -/

/-- An open manager with a single client. -/
structure Direct (s : Site) : Prop where
  pooling : s.manager.plan.pooling = false
  isOpen : s.manager.closed = false
  client : ∃ t c, s.manager.facade = some ⟨t, .direct c⟩

theorem Direct.congr {s s' : Site} (hs : Direct s) (hm : s'.manager = s.manager) : Direct s' :=
  ⟨hm ▸ hs.pooling, hm ▸ hs.isOpen, hm ▸ hs.client⟩

/-- A manager with a single client serves every call, and does nothing else. -/
theorem direct_serving : Serving Direct fun _ => False := by
  refine ⟨fun registry hs => ⟨hs.pooling, hs.isOpen, hs.client⟩, fun {s} hs => ?_⟩
  obtain ⟨t, c, hf⟩ := hs.client
  have hh : handle.run s = (.ok ⟨t, c, false⟩, s) := by
    obtain ⟨⟨plan, facade, closed, registry⟩, world⟩ := s
    cases hf
    cases hs.isOpen
    rfl
  refine ⟨⟨t, c, false⟩, s, [], hh, rfl, nofun, fun {body r s₂} hr hl => ?_⟩
  have hs₂ := hs.congr hl.manager
  have hrel : (release (some ⟨t, c, false⟩)).run s₂ = (.ok (), s₂) := by
    obtain ⟨⟨⟨_, _, pooling, _⟩, facade, closed, registry⟩, world⟩ := s₂
    cases hs₂.pooling
    rfl
  exact ⟨s₂, [], thenAlways_run hr hrel, hs₂, rfl, nofun⟩

/-! ## A pool -/

/-- A manager with an open pool of these limits, of which nothing is lent, and a remote side that
opens every client. -/
structure Ready (l : Pool.Limits) (s : Site) : Prop where
  pooling : s.manager.plan.pooling = true
  pool : ∃ t p, s.manager.facade = some ⟨t, .pooled p⟩ ∧ p.policy.limits = l ∧
    Pool.Rest (· < s.world.remote.opened) p.core ∧ p.core.inUse = [] ∧ p.core.closed = false
  entrance : s.world.remote.Welcoming

/-- A manager with a pool serves every call, if the pool may hold a connection and the time to wait
can be told, and all that it does besides is upkeep. -/
theorem ready_serving {l : Pool.Limits} {patience : Pool.Patience} (ht : l.maxTotal ≠ 0)
    (hp : l.patience none = .ok patience) : Serving (Ready l) (Event.IsUpkeep l) := by
  refine ⟨fun registry hs => ⟨hs.pooling, hs.pool, hs.entrance⟩, fun {s} hs => ?_⟩
  obtain ⟨t, p, hf, rfl, hr, hu, ho⟩ := hs.pool
  have hinv := ConnectionPool.surroundings_inventive p.request
  have hgen := ConnectionPool.surroundings_generous p.request
  obtain ⟨c, core, w, hb, hr₁, hin, ho₁, hw₁⟩ := hr.borrow_lends hinv hgen hs.entrance hu ho ht hp
  obtain ⟨before, hbe, hbu⟩ := @ConnectionPool.borrow_upkeep p.request p.policy p.core s.world
  rw [hb] at hbe
  refine ⟨⟨t, c, true⟩, leave s t p core w, before, handle_run hf hb, hbe, hbu,
    fun {body r s₂} hbody hl => ?_⟩
  -- the body leaves the pool as it is, and the connection is taken back
  have hf₂ : s₂.manager.facade = some ⟨t, .pooled { p with core }⟩ := by rw [hl.manager]; rfl
  have hp₂ : s₂.manager.plan.pooling = true := by rw [hl.manager]; exact hs.pooling
  have hr₂ : Pool.Rest (· < s₂.world.remote.opened) core := by
    rw [hl.entrance.opened]
    exact hr₁
  obtain ⟨core', w', hg, hr₃, hempty, ho₃, hw₃⟩ :=
    @Pool.Rest.giveBack_last _ _ _ _ p.policy core s₂.world c hinv hgen hr₂
      (hl.entrance.welcoming hw₁) hin ho₁
  obtain ⟨after, hae, hau⟩ := @ConnectionPool.giveBack_upkeep p.request p.policy c core s₂.world
  rw [hg] at hae
  have hrel : (release (some ⟨t, c, true⟩)).run s₂ =
      (.ok (), leave s₂ t { p with core } core' w') :=
    @release_run s₂ t { p with core } _ core' w' hp₂ hf₂ ⟨t, c, true⟩ hg
  refine ⟨leave s₂ t { p with core } core' w', after, thenAlways_run hbody hrel,
    ⟨hp₂, ?_, hw₃⟩, hae, hau⟩
  exact ⟨t, { p with core := core' }, rfl, rfl, hr₃, hempty, ho₃⟩

end Manager

/-! ## Calls one after another -/

namespace Invocation

open Manager (Serving)

/-- The exchanges that take place in both of two runs come to the same. -/
def SameOutcomes (xs ys : List (Call × Outcome)) : Prop :=
  ∀ (k : Nat) (x y : Call × Outcome), xs[k]? = some x → ys[k]? = some y → x.2 = y.2

theorem SameOutcomes.tail {x y : Call × Outcome} {xs ys : List (Call × Outcome)}
    (h : SameOutcomes (x :: xs) (y :: ys)) : SameOutcomes xs ys :=
  fun k a b ha hb => h (k + 1) a b ha hb

variable {kept kept' : Site → Prop} {own' : Event → Prop}

/-- What one call leaves behind. -/
theorem issue_done (hs : Serving kept own) {s : Site} (hk : kept s) (i : Invocation) :
    ∃ outcome, (i.issue.run s).1 = i.job.answer outcome ∧
      i.exchange s = i.job.call?.map (fun call => (call, outcome)) ∧ kept (i.issue.run s).2 ∧
      ∃ news, (i.issue.run s).2.world.remote.events = news ++ s.world.remote.events ∧
        Forward own i.job.call?.toList news := by
  have hk' : kept (i.prepared s) := by
    unfold prepared
    split
    · exact hk
    · exact hs.registry _ hk
  have he : (i.prepared s).world = s.world := by
    unfold prepared
    split <;> rfl
  obtain ⟨outcome, h⟩ := hs.job hk' i.job
  rw [issue_run]
  refine ⟨outcome, h.result, h.exchange, h.kept, ?_⟩
  rw [← he]
  exact h.events

/-- What is forwarded are the calls that are sent. -/
theorem issueAll_forwards (hs : Serving kept own) {s : Site} (hk : kept s)
    (is : List Invocation) :
    ∃ news, (issueAll is s).world.remote.events = news ++ s.world.remote.events ∧
      Forward own ((exchanges is s).map (·.1)) news := by
  induction is generalizing s with
  | nil => exact ⟨[], rfl, .quiet nofun⟩
  | cons i is ih =>
    obtain ⟨outcome, -, hx, hk', news, he, hf⟩ := issue_done hs hk i
    obtain ⟨more, he', hf'⟩ := ih hk'
    refine ⟨more ++ news, ?_, ?_⟩
    · rw [List.append_assoc, ← he]
      exact he'
    · have hcalls : (i.exchange s).toList.map (·.1) = i.job.call?.toList := by
        rw [hx]
        cases i.job.call? <;> rfl
      rw [exchanges, List.map_append, hcalls]
      exact hf.append hf'

/-- Two managers that serve every call, side by side: if what is sent comes to the same with both,
so do the calls, and the same is sent. -/
theorem lockstep (hs : Serving kept own) (hs' : Serving kept' own') {s s' : Site} (hk : kept s)
    (hk' : kept' s') (is : List Invocation)
    (same : SameOutcomes (exchanges is s) (exchanges is s')) :
    results is s' = results is s ∧ exchanges is s' = exchanges is s := by
  induction is generalizing s s' with
  | nil => exact ⟨rfl, rfl⟩
  | cons i is ih =>
    obtain ⟨outcome, hr, hx, hk₁, -⟩ := issue_done hs hk i
    obtain ⟨outcome', hr', hx', hk₁', -⟩ := issue_done hs' hk' i
    simp only [results, exchanges, hr, hr', hx, hx'] at same ⊢
    cases hj : i.job with
    | sends call =>
      rw [hj] at same
      cases (same 0 (call, outcome) (call, outcome') rfl rfl : outcome = outcome')
      obtain ⟨h1, h2⟩ := ih hk₁ hk₁' same.tail
      exact ⟨by rw [h1], by rw [h2]⟩
    | fails f | failsWithin f =>
      rw [hj] at same
      obtain ⟨h1, h2⟩ := ih hk₁ hk₁' same
      exact ⟨by rw [h1]; rfl, by rw [h2]; rfl⟩

end Invocation

namespace HandleTable

open Invocation
open Manager (direct_serving ready_serving)

variable {codec : Codec} {topology : Topology} {limits limits' : Pool.Limits} {hosts : String}
  {password : Value} {options : Options} {d d' : HandleTable}

theorem OpenedBy.direct (hd : d.OpenedBy { codec, topology, limits } hosts password options)
    (ho : d.site.manager.closed = false) : Manager.Direct d.site := by
  obtain ⟨hplan, ⟨t, backend⟩, hf, -, hb⟩ := hd.made
  refine ⟨by rw [hplan], ho, ?_⟩
  cases backend with
  | direct c => exact ⟨t, c, hf⟩
  | pooled p => exact absurd hb.1 nofun

theorem OpenedBy.ready
    (hd : d.OpenedBy { codec, topology, pooling := true, limits } hosts password options)
    {p : ConnectionPool} (hp : d.site.manager.pool? = some p) (ho : p.core.closed = false)
    (hu : ∀ c, ¬d.Lent c) (hw : d.site.world.remote.Welcoming) :
    Manager.Ready limits d.site := by
  obtain ⟨hplan, f, hf, -, hb⟩ := hd.made
  obtain ⟨-, t, q, hf', hr, hl⟩ := (hd.reached rfl).kept.lends
  cases hf.symm.trans hf'
  rw [Manager.pool?, hf] at hp
  cases hp
  have hu : p.core.inUse = [] := List.eq_nil_iff_forall_not_mem.mpr fun c hc => hu c ((hl c).mp hc)
  exact ⟨by rw [hplan], ⟨t, p, hf, by rw [hb.2], hr, hu, ho⟩, hw⟩

/-- Pooling is transparent to those who call commands. Take a manager with a single client and one
with a pool, made for the same topology and codec and initialized with the same hosts, password and
options, whatever was done with them since; neither they nor the pool are closed, nothing is lent,
clients can be opened, the pool may hold a connection, and the time to wait can be told. Then calls
in turn have the same results, and send the same commands with the same arguments, if what is sent
comes to the same. The one manager asks nothing else of the remote side, the other one nothing but
what is upkeep of its pool. -/
theorem pooling_transparent
    (hd : d.OpenedBy { codec, topology, limits } hosts password options)
    (hd' : d'.OpenedBy { codec, topology, pooling := true, limits := limits' } hosts password
      options)
    (ho : d.site.manager.closed = false)
    {p : ConnectionPool} (hp : d'.site.manager.pool? = some p) (hpo : p.core.closed = false)
    (hu : ∀ c, ¬d'.Lent c) (hw : d'.site.world.remote.Welcoming) (ht : limits'.maxTotal ≠ 0)
    (hwait : 0 ≤ limits'.maxWaitMs → Binary64.exceedsRange limits'.maxWaitMs = false)
    (is : List Invocation)
    (same : SameOutcomes (exchanges is d.site) (exchanges is d'.site)) :
    results is d'.site = results is d.site ∧ exchanges is d'.site = exchanges is d.site ∧
    (∃ news, (issueAll is d.site).world.remote.events = news ++ d.site.world.remote.events ∧
      Forward (fun _ => False) ((exchanges is d.site).map (·.1)) news) ∧
    ∃ news, (issueAll is d'.site).world.remote.events = news ++ d'.site.world.remote.events ∧
      Forward (Event.IsUpkeep limits') ((exchanges is d.site).map (·.1)) news := by
  obtain ⟨patience, hpat⟩ := Pool.Limits.patience_ok hwait
  have hs := ready_serving ht hpat
  have hk := hd.direct ho
  have hk' := hd'.ready hp hpo (fun c => hu c) hw
  obtain ⟨hr, hx⟩ := lockstep direct_serving hs hk hk' is same
  refine ⟨hr, hx, issueAll_forwards direct_serving hk is, ?_⟩
  rw [← hx]
  exact issueAll_forwards hs hk' is

/-- The handle table of a manager for one server, whose first client does not answer pings. -/
def staleServer (plan : ManagerPlan) : HandleTable :=
  ({ site := ((Manager.init "h:1" (.text "") .absent).run ⟨{ plan }, {}⟩).2 } : HandleTable).after
    (.answers none [(0, { ping := some (.ok .none) })] [])

theorem staleServer_openedBy {plan : ManagerPlan}
    (hok : ((Manager.init "h:1" (.text "") .absent).run ⟨{ plan }, {}⟩).1.isOk = true) :
    (staleServer plan).OpenedBy plan "h:1" (.text "") .absent := by
  refine ⟨⟨{ plan }, {}⟩, _, rfl, ?_, [.answers none [(0, { ping := some (.ok .none) })] []], rfl⟩
  cases hr : ((Manager.init "h:1" (.text "") .absent).run ⟨{ plan }, {}⟩).1 with
  | ok u => exact Prod.ext hr rfl
  | error f =>
    rw [hr] at hok
    cases hok

/-- A category that there is not, a key that is set, and a command that is sent as it is. -/
def threeCalls : List Invocation :=
  [⟨.text "stream", "add", [], []⟩, ⟨.text "string", "set", [.text "k", .text "v"], []⟩,
    ⟨.text "key", "_execute", [.text "object", .text "help"], []⟩]

/-- The reply that nothing was set up for. -/
def isUsual (x : Call × Outcome) : Bool :=
  match x.2 with
  | .ok .none => true
  | _ => false

theorem eq_of_isUsual {x : Call × Outcome} (h : isUsual x = true) : x.2 = .ok .none := by
  simp only [isUsual] at h
  split at h
  · assumption
  · cases h

/-- The pool finds that its client is stale and opens another one. -/
theorem pooling_transparent_of_staleServer : ∃ (limits : Pool.Limits) (d d' : HandleTable),
    d.OpenedBy {} "h:1" (.text "") .absent ∧
    d'.OpenedBy { pooling := true, limits } "h:1" (.text "") .absent ∧
    (exchanges threeCalls d.site).length = 2 ∧
    (issueAll threeCalls d'.site).world.remote.opened = 2 ∧
    results threeCalls d'.site = results threeCalls d.site ∧
    exchanges threeCalls d'.site = exchanges threeCalls d.site := by
  let limits : Pool.Limits := { maxTotal := 1, maxIdle := 1, minIdle := 1, testOnBorrow := true }
  let plan : ManagerPlan := { pooling := true, limits }
  have hd : (staleServer {}).OpenedBy {} "h:1" (.text "") .absent :=
    staleServer_openedBy (by decide +kernel)
  have hd' : (staleServer plan).OpenedBy plan "h:1" (.text "") .absent :=
    staleServer_openedBy (by decide +kernel)
  obtain ⟨p, hp, hpo⟩ : ∃ p, (staleServer plan).site.manager.pool? = some p ∧
      p.core.closed = false := by
    have h : ((staleServer plan).site.manager.pool?.any fun p => !p.core.closed) = true := by
      decide +kernel
    obtain ⟨p, hp, h⟩ := (Option.any_eq_true _ _).mp h
    exact ⟨p, hp, by simpa using h⟩
  have hw : (staleServer plan).site.world.remote.Welcoming :=
    ⟨rfl, List.forall_iff_forall_mem.mp (by decide +kernel)⟩
  have usually : ∀ s, (exchanges threeCalls s).all isUsual = true →
      ∀ (k : Nat) x, (exchanges threeCalls s)[k]? = some x → x.2 = .ok .none :=
    fun s h k x hx => eq_of_isUsual (List.all_eq_true.mp h x (List.mem_of_getElem? hx))
  have same : SameOutcomes (exchanges threeCalls (staleServer {}).site)
      (exchanges threeCalls (staleServer plan).site) := fun k x y hx hy =>
    (usually _ (by decide +kernel) k x hx).trans (usually _ (by decide +kernel) k y hy).symm
  obtain ⟨hr, hx, -⟩ :=
    pooling_transparent hd hd' (by decide +kernel) hp hpo (by intro c h; cases h) hw
    (by decide) (by decide) threeCalls same
  exact ⟨limits, _, _, hd, hd', by decide +kernel, by decide +kernel, hr, hx⟩

end HandleTable
end RedisGateway
