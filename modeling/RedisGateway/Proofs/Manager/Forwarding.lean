import RedisGateway.Proofs.Command.Binding
import RedisGateway.Proofs.Manager.Ledger
import RedisGateway.Proofs.Manager.Release

/-!
What a command of an executor comes to. It takes a connection from the pool, sends its call through
it once, and hands the connection back, however the call ended; when no connection can be had
nothing is sent.
-/

namespace RedisGateway

/-! ## What a pool does by itself -/

/-- What a pool asks for by itself: clients are opened and closed, and pinged where its limits say
that connections are checked. -/
def Event.IsUpkeep (l : Pool.Limits) : Event → Prop
  | .opened .. | .closed _ => True
  | .called _ call =>
    call = { command := "ping" } ∧ (l.testOnBorrow = true ∨ l.testOnReturn = true)

namespace Pool

/-- A call that is checking a connection does so because of the limits. -/
def Phase.Checks (l : Limits) : Phase → Prop
  | .vetting _ => l.testOnBorrow = true
  | .checking _ => l.testOnReturn = true
  | _ => True

variable {policy : Policy} {p : Patience}

theorem seek_checks (late : Bool) (core : Core) :
    (seek policy p late core).next.Checks policy.limits := by
  unfold seek
  split
  · trivial
  · split
    · dsimp only
      split
      · assumption
      · trivial
    · split
      · trivial
      · rcases whenFull_cases policy p late with h | h | ⟨f, h⟩ <;> rw [h] <;> trivial

theorem accept_checks (c : Conn) (core : Core) :
    (accept policy c core).next.Checks policy.limits := by
  unfold accept
  split
  · trivial
  · dsimp only
    split
    · trivial
    · split
      · assumption
      · trivial

theorem sweep_checks (n : Nat) (cs : List Conn) :
    (sweep policy n cs).1.Checks policy.limits := by
  cases cs <;> trivial

theorem hold_checks {phase : Phase} {turn : Core → Turn} (h : phase.move policy p = .hold turn)
    (core : Core) : (turn core).next.Checks policy.limits := by
  have e := entry_of_hold h core
  cases phase with
  | seeking late again =>
    cases h
    exact seek_checks late core
  | accepting c =>
    cases h
    exact accept_checks c core
  | _ =>
    generalize (turn core).core = core' at e
    generalize (turn core).wake = wake at e
    generalize (turn core).next = next at e ⊢
    cases e <;> first | trivial | exact sweep_checks ..

theorem Sequel.no_fault {phase next : Phase} {r : Request} {a : Except Failure r.Reply}
    (e : Sequel policy phase r a next) (hs : phase.serves false) (f : Fault) :
    next ≠ .finished (.error f) := by
  intro hn
  cases e with
  | turnedAway => exact absurd hs nofun
  | @swept c rest n => cases rest <;> cases hn
  | _ => cases hn

theorem Sequel.checks {phase next : Phase} {r : Request} {a : Except Failure r.Reply}
    (e : Sequel policy phase r a next) : next.Checks policy.limits := by
  cases e with
  | swept => exact sweep_checks ..
  | _ => trivial

/-- A call that minds its connection does not find it gone. -/
theorem Lone.no_fault {base : List Conn} {known known' : Conn → Prop} {phase next : Phase}
    {core core' : Core} {wake : Wake} (hl : Lone false base known phase core)
    (hl' : Lone false base known' next core') (e : Entry policy phase core core' next wake)
    (f : Fault) : next ≠ .finished (.error f) := by
  intro hn
  cases e with
  | @forget c keep shut core h =>
    have h1 := hl.hands c
    have h2 : (Phase.settling c keep shut).minded.count c = 1 := List.count_singleton_self ..
    exact h (List.count_pos_iff.mp (by omega))
  | turnedAway | withdraw | forgo => exact absurd hl.serves nofun
  | full ho hi hr hn => exact absurd hl.serves nofun
  | reuse _ _ h => rcases h with rfl | rfl <;> cases hn
  | accept _ _ h => rcases h with rfl | ⟨_, _, rfl⟩ <;> cases hn
  | @shut core _ => cases h : core.idle.reverse <;> rw [h] at hn <;> cases hn
  | _ => cases hn

/-- A connection in use is taken back without a fault. -/
theorem Rest.giveBack_ok (policy : Policy) {σ : Type} {around : Surroundings σ}
    {known : σ → Conn → Prop} {core₀ : Core} {w : σ} (hk : around.Inventive known)
    (hr : Rest (known w) core₀) {c : Conn} (hc : c ∈ core₀.inUse) :
    (Pool.giveBack around policy c core₀ w).1 = .ok none := by
  have hb : (Phase.accepting c).effort .endless core₀ ≤ core₀.callBound := by
    simp only [Phase.effort, Core.callBound]
    omega
  have hl := hr.lone false (core₀.inUse.erase c) (.accepting c) rfl rfl rfl rfl
    fun d => (count_erase_add hc d).symm
  obtain ⟨last, he, hl, hn⟩ := @run_ends policy .endless σ around
    (fun phase core w => Lone false (core₀.inUse.erase c) (known w) phase core ∧
      ∀ f, phase ≠ .finished (.error f))
    (fun hm held => ⟨held.1.hold hk hm,
      held.1.no_fault (held.1.hold hk hm) (entry_of_hold hm _)⟩)
    (fun hm held => ⟨held.1.ask hk hm, (sequel_of_ask hm _).no_fault held.1.serves⟩)
    (fun held => by cases held.1.serves) _ _ w _ hb ⟨hl, by simp⟩
  change (Phase.run around policy .endless core₀.callBound (.accepting c) core₀ w).1 = _
  generalize (Phase.run around policy .endless core₀.callBound (.accepting c) core₀ w).1 = r at he
  cases he with
  | waiting => cases hl.serves
  | finished =>
    cases r with
    | error f => exact absurd rfl (hn f)
    | ok got =>
      cases got with
      | none => rfl
      | some d => cases hl.serves

end Pool

/-! ## Upkeep -/

namespace ConnectionPool

variable {request : ClientRequest} {policy : Pool.Policy} {p : Pool.Patience}

/-- What a call asks for is upkeep. -/
theorem answer_upkeep {phase : Pool.Phase} {r : Pool.Request}
    {resume : Except Failure r.Reply → Pool.Phase × List Notice}
    (hm : phase.move policy p = .ask r resume) (hc : phase.Checks policy.limits) (w : World) :
    ∃ news, ((surroundings request).answer r w).2.remote.events = news ++ w.remote.events ∧
      ∀ e ∈ news, e.IsUpkeep policy.limits := by
  have hping : ∀ c, (Event.called c { command := "ping" }).IsUpkeep policy.limits ↔
      policy.limits.testOnBorrow = true ∨ policy.limits.testOnReturn = true := fun c =>
    ⟨fun h => h.2, fun h => ⟨rfl, h⟩⟩
  have hsend : ∀ c, (w.remote.send c { command := "ping" }).2.events =
      [.called c { command := "ping" }] ++ w.remote.events := fun c =>
    (@Remote.send_becomes c { command := "ping" } (by decide) w.remote).events
  have hclose : ∀ c, ∃ news, ((surroundings request).answer (.close c) w).2.remote.events =
      news ++ w.remote.events ∧ ∀ e ∈ news, e.IsUpkeep policy.limits := fun c =>
    ⟨[.closed c], rfl, by simp [Event.IsUpkeep]⟩
  cases phase <;> cases hm
  case opening =>
    rcases Remote.openClient_becomes request w.remote with ⟨t, hr, hb⟩ | ⟨f, t, hr, hb⟩
    · exact ⟨_, (congrArg (fun out => out.2.events) hr).trans hb.events, by simp [Event.IsUpkeep]⟩
    · exact ⟨_, (congrArg (fun out => out.2.events) hr).trans hb.events, nofun⟩
  case vetting c => exact ⟨_, hsend c, by simpa [hping] using .inl hc⟩
  case checking c => exact ⟨_, hsend c, by simpa [hping] using .inr hc⟩
  case discarding c => exact hclose c
  case refusing c => exact hclose c
  case retiring c shut => exact hclose c
  case sweeping c rest n => exact hclose c

/-- A call of a pool causes nothing but upkeep. -/
theorem run_upkeep {phase : Pool.Phase} (hc : phase.Checks policy.limits) (fuel : Nat)
    (core : Pool.Core) (w : World) :
    ∃ news, (phase.run (surroundings request) policy p fuel core w).2.2.remote.events =
      news ++ w.remote.events ∧ ∀ e ∈ news, e.IsUpkeep policy.limits := by
  induction fuel generalizing phase core w with
  | zero => exact ⟨[], rfl, nofun⟩
  | succ fuel ih =>
    cases hm : phase.move policy p with
    | stop r =>
      simp only [Pool.Phase.run, hm]
      exact ⟨[], rfl, nofun⟩
    | park =>
      simp only [Pool.Phase.run, hm]
      split
      · exact @ih (.seeking true true) trivial core w
      · exact ⟨[], rfl, nofun⟩
    | hold turn =>
      simp only [Pool.Phase.run, hm]
      obtain ⟨news, he, hu⟩ := ih (Pool.hold_checks hm core) (turn core).core
        ((surroundings request).report (turn core).notices w)
      rw [surroundings_report] at he
      exact ⟨news, he, hu⟩
    | ask r resume =>
      simp only [Pool.Phase.run, hm]
      obtain ⟨news, he, hu⟩ := @answer_upkeep request policy p phase r resume hm hc w
      obtain ⟨more, he', hu'⟩ := ih (Pool.sequel_of_ask hm _).checks core
        ((surroundings request).report
          (resume ((surroundings request).answer r w).1).2 ((surroundings request).answer r w).2)
      rw [surroundings_report, he, ← List.append_assoc] at he'
      refine ⟨more ++ news, he', fun e hm => ?_⟩
      rcases List.mem_append.mp hm with h | h
      · exact hu' e h
      · exact hu e h

theorem borrow_upkeep (core : Pool.Core) (w : World) :
    ∃ news, (Pool.borrow (surroundings request) policy none core w).2.2.remote.events =
      news ++ w.remote.events ∧ ∀ e ∈ news, e.IsUpkeep policy.limits := by
  unfold Pool.borrow
  split
  · exact ⟨[], rfl, nofun⟩
  · exact @run_upkeep request policy _ (.seeking false false) trivial _ core w

theorem giveBack_upkeep (c : Pool.Conn) (core : Pool.Core) (w : World) :
    ∃ news, (Pool.giveBack (surroundings request) policy c core w).2.2.remote.events =
      news ++ w.remote.events ∧ ∀ e ∈ news, e.IsUpkeep policy.limits :=
  @run_upkeep request policy _ (.accepting c) trivial _ core w

end ConnectionPool

/-! ## One command -/

/-- A call of a method of an executor. -/
structure Order where
  /-- What names the category of the executor. -/
  value : Value
  category : Category
  names : Category.ofValue? value = some category
  command : Command
  listed : command ∈ Command.ofCategory category
  args : List Value
  named : Fields

namespace Order

/-- What the client is to be sent. -/
def call (o : Order) : Call := o.command.forwarded o.args o.named

/-- The arguments fit the signature of the method. -/
def Fits (o : Order) : Prop := o.command.Accepts o.args o.named

def issue (o : Order) : Act Site Value := Manager.command o.value o.command.name o.args o.named

/-- The manager has made the executor, if it had not done so before. -/
def prepared (o : Order) (s : Site) : Site :=
  { s with manager := { s.manager with registry := (s.manager.registry.obtain o.category).2 } }

theorem call_command (o : Order) : o.call.command ≠ Remote.closingCommand :=
  Command.name_ne_closing o.listed

theorem issue_run (o : Order) (s : Site) : o.issue.run s =
    match o.command.bind o.args o.named with
    | .ok call => (Manager.execute call).run (o.prepared s)
    | .error f => (.error f, o.prepared s) := by
  have hx : (Manager.executor o.value).run s =
      (.ok (s.manager.registry.obtain o.category).1, o.prepared s) := by
    rw [Manager.executor_run, o.names]
    rfl
  unfold issue Manager.command
  rw [Act.run_bind, hx]
  simp only [Manager.obtain_category, ExecutorMember.find?_command o.listed]
  cases o.command.bind o.args o.named with
  | ok call => rfl
  | error f => rfl

end Order

namespace Manager

open HandleTable (inUse mem_inUse)

/-- A manager with a pool of these limits, no call of which is in progress. -/
def Pooled (l : Pool.Limits) (s : Site) : Prop :=
  s.manager.plan.pooling = true ∧ ∃ t p, s.manager.facade = some ⟨t, .pooled p⟩ ∧
    p.policy.limits = l ∧ Pool.Rest (· < s.world.remote.opened) p.core

/-- A call is served: a client that was free is borrowed, it gets the call, which is all that
callers ask of it, and it is handed back. -/
inductive Served (l : Pool.Limits) (call : Call) (s : Site) :
    Except Fault Value → Site → ClientId → List Event → Prop
  | intro {h s₁ s₂ s' before after}
      (borrowed : handle.run s = (.ok h, s₁))
      (free : h.client ∉ inUse s.manager)
      (lent : ∀ c, c ∈ inUse s₁.manager ↔ c ∈ inUse s.manager ∨ c = h.client)
      (answered : s₂.manager = s₁.manager ∧
        s₂.world.remote = (s₁.world.remote.send h.client call).2)
      (handedBack : (release (some h)).run s₂ = (.ok (), s'))
      (kept : ∀ c, c ∈ inUse s'.manager ↔ c ∈ inUse s.manager)
      (events : s'.world.remote.events =
        after ++ .called h.client call :: before ++ s.world.remote.events)
      (upkeep : ∀ e ∈ after ++ before, e.IsUpkeep l) :
      Served l call s (resultOf call.command (s₁.world.remote.send h.client call).1) s' h.client
        (after ++ .called h.client call :: before)

/-- No handle can be had: nothing is sent, and whoever has borrowed a client still has it. -/
structure TurnedAway (l : Pool.Limits) (s : Site) (f : Fault) (s' : Site) (news : List Event) :
    Prop where
  refused : handle.run s = (.error f, s')
  kept : ∀ c, c ∈ inUse s'.manager ↔ c ∈ inUse s.manager
  events : s'.world.remote.events = news ++ s.world.remote.events
  upkeep : ∀ e ∈ news, e.IsUpkeep l

variable {l : Pool.Limits} {s : Site}

theorem inUse_of_facade {t : Topology} {p : ConnectionPool}
    (hf : s.manager.facade = some ⟨t, .pooled p⟩) : inUse s.manager = p.core.inUse := by
  rw [inUse, pool?, hf]
  rfl

theorem thenAlways_run {α : Type} {body : Act Site α} {closing : Act Site Unit} {s s₁ s₂ : Site}
    {r : Except Fault α} {c : Except Fault Unit} (hb : body.run s = (r, s₁))
    (hc : closing.run s₁ = (c, s₂)) :
    (thenAlways body closing).run s = (c.bind fun _ => r, s₂) := by
  show thenAlways body closing s = _
  simp only [thenAlways, hb, hc]

/-- A client gets the call, and the outcome is worded as it is for callers. -/
theorem exchange_run (h : Handle) (call : Call) (s : Site) : ∃ s', ((do
      let outcome ← send h call
      for n in outcomeNotices call.command outcome do note n
      resultOf call.command outcome : Act Site Value).run s) =
        (resultOf call.command (s.world.remote.send h.client call).1, s') ∧
      s'.manager = s.manager ∧ s'.world.remote = (s.world.remote.send h.client call).2 := by
  obtain ⟨outcome, r, ho⟩ : ∃ outcome r, s.world.remote.send h.client call = (outcome, r) :=
    ⟨_, _, rfl⟩
  have hs : (send h call).run s =
      (.ok outcome, { s with world := { s.world with remote := r } }) := by
    show send h call s = _
    simp only [send, ho]
  rw [Act.run_bind, hs, ho]
  cases outcome with
  | ok v => exact ⟨_, rfl, rfl, rfl⟩
  | error f =>
    simp only [outcomeNotices, resultOf]
    by_cases hk : f.kind.isConnectivity = true
    · simp only [if_pos hk]
      exact ⟨_, rfl, rfl, rfl⟩
    · simp only [if_neg hk]
      split <;> exact ⟨_, rfl, rfl, rfl⟩

/-- A handle comes with a client that was free, or nothing is borrowed. -/
theorem Pooled.handle (hs : Pooled l s) {r : Except Fault Handle} {s₁ : Site}
    (hrun : Manager.handle.run s = (r, s₁)) :
    Pooled l s₁ ∧
    (∃ news, s₁.world.remote.events = news ++ s.world.remote.events ∧ ∀ e ∈ news, e.IsUpkeep l) ∧
    ((∃ h, r = .ok h ∧ h.client ∉ inUse s.manager ∧
      ∀ c, c ∈ inUse s₁.manager ↔ c ∈ inUse s.manager ∨ c = h.client) ∨
    ∃ f, r = .error f ∧ ∀ c, c ∈ inUse s₁.manager ↔ c ∈ inUse s.manager) := by
  obtain ⟨hp, t, p, hf, rfl, hr⟩ := hs
  obtain ⟨got, core, w, ho⟩ : ∃ got core w, Pool.borrow (ConnectionPool.surroundings p.request)
      p.policy none p.core s.world = (got, core, w) := ⟨_, _, _, rfl⟩
  obtain ⟨hr₁, hb⟩ := hr.borrow (ConnectionPool.surroundings_inventive p.request) ho
  have hu := inUse_of_facade hf
  have hn := @ConnectionPool.borrow_upkeep p.request p.policy p.core s.world
  rw [ho] at hn
  have hm : ∀ d, d ∈ core.inUse ↔ 0 < core.inUse.count d := fun d => List.count_pos_iff.symm
  have hm' : ∀ d, d ∈ p.core.inUse ↔ 0 < p.core.inUse.count d := fun d => List.count_pos_iff.symm
  cases hrun.symm.trans (handle_run hf ho)
  refine ⟨⟨hp, t, { p with core }, rfl, rfl, hr₁⟩, hn, ?_⟩
  rw [hu, inUse_of_facade (s := leave s t p core w) rfl]
  rcases hb with ⟨c, rfl, hin⟩ | ⟨f, rfl, hin⟩
  · refine .inl ⟨⟨t, c, true⟩, rfl, fun hc => ?_, fun d => ?_⟩
    · -- the client is counted once in all, so it was not in use before
      have h1 := hin c
      have h2 := hr₁.apart c
      rw [List.count_singleton_self] at h1
      have h3 := (hm' c).mp hc
      omega
    · have h1 := hin d
      rw [List.count_singleton] at h1
      rw [hm, hm']
      by_cases hd : c = d
      · subst hd
        simp only [beq_self_eq_true, if_true] at h1
        simp [h1]
      · rw [if_neg (by simpa using hd)] at h1
        simp [h1, Ne.symm hd]
  · refine .inr ⟨f, rfl, fun d => ?_⟩
    rw [hm, hm', hin d]

/-- A client in use is handed back. -/
theorem Pooled.release (hs : Pooled l s) {h : Handle} (hh : h.client ∈ inUse s.manager) :
    ∃ s', (Manager.release (some h)).run s = (.ok (), s') ∧ Pooled l s' ∧
      (∃ news, s'.world.remote.events = news ++ s.world.remote.events ∧
        ∀ e ∈ news, e.IsUpkeep l) ∧
      ∀ c, c ∈ inUse s'.manager ↔ c ∈ inUse s.manager ∧ c ≠ h.client := by
  obtain ⟨hp, t, p, hf, rfl, hr⟩ := hs
  rw [inUse_of_facade hf] at hh ⊢
  obtain ⟨got, core, w, ho⟩ : ∃ got core w, Pool.giveBack
      (ConnectionPool.surroundings p.request) p.policy h.client p.core s.world = (got, core, w) :=
    ⟨_, _, _, rfl⟩
  have hgot := hr.giveBack_ok p.policy (ConnectionPool.surroundings_inventive p.request) hh
  rw [ho] at hgot
  obtain ⟨hr₁, hin⟩ := hr.giveBack (ConnectionPool.surroundings_inventive p.request) hh ho
  have hn := @ConnectionPool.giveBack_upkeep p.request p.policy h.client p.core s.world
  rw [ho] at hn
  cases hgot
  refine ⟨_, release_run hp hf ho, ⟨hp, t, { p with core }, rfl, rfl, hr₁⟩, hn, fun d => ?_⟩
  rw [inUse_of_facade (s := leave s t p core w) rfl]
  have h1 := hin d
  have h2 := hr.apart d
  rw [List.count_singleton] at h1
  rw [show d ∈ core.inUse ↔ _ from List.count_pos_iff.symm, ← List.count_pos_iff]
  by_cases hd : h.client = d
  · subst hd
    simp only [beq_self_eq_true, if_true] at h1
    simp only [ne_eq, not_true, and_false, iff_false]
    omega
  · rw [if_neg (by simpa using hd)] at h1
    simp only [ne_eq, Ne.symm hd, not_false_iff, and_true]
    omega

/-- A call is served on a connection of its own, or turned away. -/
theorem Pooled.execute (hs : Pooled l s) {call : Call}
    (hc : call.command ≠ Remote.closingCommand) {r : Except Fault Value} {s' : Site}
    (he : (Manager.execute call).run s = (r, s')) :
    Pooled l s' ∧ ((∃ client news, Served l call s r s' client news) ∨
      ∃ f news, r = .error f ∧ TurnedAway l s f s' news) := by
  obtain ⟨got, s₁, hh⟩ : ∃ got s₁, Manager.handle.run s = (got, s₁) := ⟨_, _, rfl⟩
  obtain ⟨hs₁, ⟨before, hbe, hbu⟩, hgot⟩ := hs.handle hh
  rw [Manager.execute, withHandle, Act.run_bind, hh] at he
  rcases hgot with ⟨h, rfl, hfree, hlent⟩ | ⟨f, rfl, hkept⟩
  · obtain ⟨s₂, hx, hm, hw⟩ := exchange_run h call s₁
    have hs₂ : Pooled l s₂ := by
      obtain ⟨hp, t, p, hf, hl, hr⟩ := hs₁
      refine ⟨by rw [hm, hp], t, p, by rw [hm, hf], hl, ?_⟩
      rw [hw, Remote.send_opened]
      exact hr
    have hin : h.client ∈ inUse s₂.manager := by
      rw [hm]
      exact (hlent h.client).mpr (.inr rfl)
    obtain ⟨s₃, hrel, hs₃, ⟨after, hae, hau⟩, hback⟩ := hs₂.release hin
    cases he.symm.trans (thenAlways_run hx hrel)
    refine ⟨hs₃, .inl ⟨h.client, after ++ .called h.client call :: before, ?_⟩⟩
    refine .intro hh hfree hlent ⟨hm, hw⟩ hrel (fun c => ?_) ?_ ?_
    · rw [hback, hm, hlent]
      constructor
      · rintro ⟨hc | hc, hn⟩
        · exact hc
        · exact absurd hc hn
      · exact fun hc => ⟨.inl hc, fun hn => hfree (hn ▸ hc)⟩
    · rw [hae, hw, (Remote.send_becomes h.client hc s₁.world.remote).events, hbe]
      simp
    · intro e he
      rcases List.mem_append.mp he with h | h
      · exact hau e h
      · exact hbu e h
  · cases he
    exact ⟨hs₁, .inr ⟨f, before, rfl, hh, hkept, hbe, hbu⟩⟩

end Manager

/-! ## Commands one after another -/

namespace Order

open HandleTable (inUse)
open Manager (Pooled Served TurnedAway)

variable {l : Pool.Limits}

/-- Asking for an executor touches neither the pool nor the clients. -/
theorem prepared_pooled {s : Site} (hs : Pooled l s) (o : Order) : Pooled l (o.prepared s) := hs

/-- A call whose arguments fit is served or turned away; another one comes to nothing. -/
theorem issue_cases {s : Site} (hs : Pooled l s) (o : Order) {r : Except Fault Value} {s' : Site}
    (hi : o.issue.run s = (r, s')) :
    Pooled l s' ∧
    ((¬o.Fits ∧ r = .error .argumentMismatch ∧ s' = o.prepared s) ∨
    (o.Fits ∧ ((∃ client news, Served l o.call (o.prepared s) r s' client news) ∨
      ∃ f news, r = .error f ∧ TurnedAway l (o.prepared s) f s' news))) := by
  rw [issue_run] at hi
  cases hb : o.command.bind o.args o.named with
  | error f =>
    rw [hb] at hi
    cases hi
    have hf : f = .argumentMismatch := by
      unfold Command.bind at hb
      dsimp only at hb
      split at hb
      · cases hb
        rfl
      · split at hb <;> cases hb
        rfl
    refine ⟨prepared_pooled hs o, .inl ⟨fun ha => ?_, congrArg Except.error hf, rfl⟩⟩
    rw [Command.bind_ok_iff.mpr ⟨ha, rfl⟩] at hb
    cases hb
  | ok call =>
    rw [hb] at hi
    obtain ⟨ha, rfl⟩ := Command.bind_ok_iff.mp hb
    obtain ⟨hs', h⟩ := (prepared_pooled hs o).execute o.call_command hi
    exact ⟨hs', .inr ⟨ha, h⟩⟩

/-- What a call sends, and through which client: nothing, if the arguments do not fit or no handle
can be had. -/
def acquired (o : Order) (s : Site) : Option (ClientId × Call) :=
  match o.command.bind o.args o.named, (Manager.handle.run (o.prepared s)).1 with
  | .ok call, .ok h => some (h.client, call)
  | _, _ => none

/-- Issues calls one after another. -/
def issueAll : List Order → Site → Site
  | [], s => s
  | o :: os, s => issueAll os (o.issue.run s).2

/-- Those of several calls that acquired a handle, with its client. -/
def acquiredAll : List Order → Site → List (ClientId × Call)
  | [], _ => []
  | o :: os, s => (o.acquired s).toList ++ acquiredAll os (o.issue.run s).2

/-- Events, latest first, in which these calls were sent in turn, with nothing but upkeep between
them. -/
inductive Log (l : Pool.Limits) : List (ClientId × Call) → List Event → Prop
  | quiet {news} (h : ∀ e ∈ news, Event.IsUpkeep l e) : Log l [] news
  | sent {calls news client call after} (h : Log l calls news)
      (ha : ∀ e ∈ after, Event.IsUpkeep l e) :
      Log l (calls ++ [(client, call)]) (after ++ .called client call :: news)

theorem Log.append {calls more : List (ClientId × Call)} {news later : List Event}
    (h : Log l calls news) (h' : Log l more later) : Log l (calls ++ more) (later ++ news) := by
  induction h' with
  | quiet hu =>
    rw [List.append_nil]
    cases h with
    | quiet hn =>
      refine .quiet fun e he => ?_
      rcases List.mem_append.mp he with he | he
      · exact hu e he
      · exact hn e he
    | sent h ha =>
      rw [← List.append_assoc]
      refine .sent h fun e he => ?_
      rcases List.mem_append.mp he with he | he
      · exact hu e he
      · exact ha e he
  | @sent more later client call after _ ha ih =>
    rw [← List.append_assoc calls, List.append_assoc after, List.cons_append]
    exact .sent ih ha

/-- The calls in a record of events, in the order in which they were made. -/
def calledIn (es : List Event) : List (ClientId × Call) :=
  es.reverse.filterMap fun
    | .called client call => some (client, call)
    | _ => none

/-- A pool that checks no connections sends nothing by itself. -/
theorem Log.calledIn_eq {calls : List (ClientId × Call)} {news : List Event} (h : Log l calls news)
    (hb : l.testOnBorrow = false) (hr : l.testOnReturn = false) : calledIn news = calls := by
  have hq : ∀ es : List Event, (∀ e ∈ es, e.IsUpkeep l) → calledIn es = [] := by
    intro es hes
    refine List.filterMap_eq_nil_iff.mpr fun e he => ?_
    have hu := hes e (List.mem_reverse.mp he)
    cases e with
    | called c call =>
      rcases hu.2 with h | h
      · exact absurd (hb.symm.trans h) nofun
      · exact absurd (hr.symm.trans h) nofun
    | _ => rfl
  induction h with
  | quiet hn => exact hq _ hn
  | @sent calls news client call after h ha ih =>
    have h1 : calledIn (after ++ .called client call :: news) =
        calledIn news ++ ((client, call) :: calledIn after) := by
      simp [calledIn]
    rw [h1, ih, hq _ ha]

/-- What one call leaves behind. -/
theorem issue_log {s : Site} (hs : Pooled l s) (o : Order) :
    Pooled l (o.issue.run s).2 ∧
    (∃ news, (o.issue.run s).2.world.remote.events = news ++ s.world.remote.events ∧
      Log l (o.acquired s).toList news) ∧
    ∀ c, c ∈ inUse (o.issue.run s).2.manager ↔ c ∈ inUse s.manager := by
  obtain ⟨r, s', hi⟩ : ∃ r s', o.issue.run s = (r, s') := ⟨_, _, rfl⟩
  obtain ⟨hs', h⟩ := issue_cases hs o hi
  rw [hi]
  refine ⟨hs', ?_⟩
  unfold acquired
  rcases h with ⟨hf, -, rfl⟩ | ⟨hf, ⟨client, news, h⟩ | ⟨f, news, -, h⟩⟩
  · refine ⟨⟨[], rfl, ?_⟩, fun c => Iff.rfl⟩
    cases hb : o.command.bind o.args o.named with
    | ok call => exact absurd (Command.bind_ok_iff.mp hb).1 hf
    | error f => exact .quiet nofun
  · rw [Command.bind_ok_iff.mpr ⟨hf, rfl⟩]
    cases h with
    | @intro h s₁ s₂ _ before after borrowed free lent answered handedBack kept events upkeep =>
      have hl : Log l ([] ++ [(h.client, o.call)])
          (after ++ .called h.client o.call :: before) := by
        refine .sent (.quiet fun e he => ?_) fun e he => ?_
        · exact upkeep e (List.mem_append_right _ he)
        · exact upkeep e (List.mem_append_left _ he)
      rw [borrowed]
      exact ⟨⟨_, events, hl⟩, kept⟩
  · rw [Command.bind_ok_iff.mpr ⟨hf, rfl⟩, h.refused]
    exact ⟨⟨news, h.events, .quiet h.upkeep⟩, h.kept⟩

theorem issueAll_log {s : Site} (hs : Pooled l s) (os : List Order) :
    (∃ news, (issueAll os s).world.remote.events = news ++ s.world.remote.events ∧
      Log l (acquiredAll os s) news) ∧
    ∀ c, c ∈ inUse (issueAll os s).manager ↔ c ∈ inUse s.manager := by
  induction os generalizing s with
  | nil => exact ⟨⟨[], rfl, .quiet nofun⟩, fun _ => Iff.rfl⟩
  | cons o os ih =>
    obtain ⟨hs', ⟨news, he, hl⟩, hu⟩ := issue_log hs o
    obtain ⟨⟨more, he', hl'⟩, hu'⟩ := ih hs'
    refine ⟨⟨more ++ news, ?_, hl.append hl'⟩, fun c => (hu' c).trans (hu c)⟩
    rw [List.append_assoc, ← he]
    exact he'

end Order

namespace HandleTable

open Manager (Pooled Served TurnedAway)

/-- A handle table that was reached is that of a pool at rest. -/
theorem Reached.pooled {d : HandleTable} (hd : d.Reached) :
    ∃ p, d.site.manager.pool? = some p ∧ Pooled p.policy.limits d.site := by
  obtain ⟨hp, t, p, hf, hr, -⟩ := hd.kept.lends
  refine ⟨p, ?_, hp, t, p, hf, rfl, hr⟩
  rw [Manager.pool?, hf]
  rfl

/-- One command is one borrow and one release. Whatever callers have done with a manager with a
pool: a call of a method whose arguments fit its signature binds every parameter, in declared order,
and sends the values that were given and the fallbacks of the others, nothing dropped or repeated.
It makes that one client call, on a client that was free and is handed back, or makes none since no
handle can be had. So after any calls in turn the same clients are borrowed as before, and what was
sent are the calls that acquired a handle, each of them once. -/
theorem one_command_one_borrow {d : HandleTable} (hd : d.Reached) {p : ConnectionPool}
    (hp : d.site.manager.pool? = some p) :
    (∀ o : Order, o.Fits →
      (Command.assigned o.command.parameters o.args o.named).map (·.1) = o.command.parameters ∧
      (o.call.arguments ++ o.call.keywords.map (·.2)).Perm (o.args ++
        (o.command.parameters.drop o.args.length).filterMap (Command.valueOf o.named)) ∧
      ∃ r s', o.issue.run d.site = (r, s') ∧
        ((∃ client news, Served p.policy.limits o.call (o.prepared d.site) r s' client news) ∨
        ∃ f news, r = .error f ∧ TurnedAway p.policy.limits (o.prepared d.site) f s' news)) ∧
    ∀ os : List Order,
      (∀ c, c ∈ inUse (Order.issueAll os d.site).manager ↔ c ∈ inUse d.site.manager) ∧
      ∃ news, (Order.issueAll os d.site).world.remote.events =
          news ++ d.site.world.remote.events ∧
        Order.Log p.policy.limits (Order.acquiredAll os d.site) news ∧
        (p.policy.limits.testOnBorrow = false → p.policy.limits.testOnReturn = false →
          Order.calledIn news = Order.acquiredAll os d.site) := by
  obtain ⟨q, hq, hs⟩ := hd.pooled
  cases hq.symm.trans hp
  constructor
  · intro o ho
    refine ⟨Command.assigned_parameters ho.filled, Command.forwarded_perm .., _, _, rfl, ?_⟩
    obtain ⟨-, ⟨hn, -⟩ | ⟨-, h⟩⟩ := Order.issue_cases hs o rfl
    · exact absurd ho hn
    · exact h
  · intro os
    obtain ⟨⟨news, he, hl⟩, hu⟩ := Order.issueAll_log hs os
    exact ⟨hu, news, he, hl, hl.calledIn_eq⟩

/-- A key is set unless it exists. -/
def setNew : Order where
  value := .text "string"
  category := .string
  names := by decide
  command := .withOptions "set" ["key", "value"]
    [.keyword "ex" .none, .keyword "px" .none, .switch "nx", .switch "xx", .switch "keepttl",
      .switch "get"]
  listed := List.mem_cons_of_mem _ List.mem_cons_self
  args := [.text "k", .text "v"]
  named := [("nx", .flag true)]

/-- A handle is out, and a key is set twice in turn. -/
theorem one_command_one_borrow_of_oneServer :
    ∃ (d : HandleTable) (p : ConnectionPool),
      d.Reached ∧ d.site.manager.pool? = some p ∧ setNew.Fits ∧
      (∃ r s', setNew.issue.run d.site = (r, s') ∧
        ((∃ client news, Served p.policy.limits setNew.call (setNew.prepared d.site) r s' client
          news) ∨
        ∃ f news, r = .error f ∧
          TurnedAway p.policy.limits (setNew.prepared d.site) f s' news)) ∧
      (∀ c, c ∈ inUse (Order.issueAll [setNew, setNew] d.site).manager ↔
        c ∈ inUse d.site.manager) ∧
      Order.acquiredAll [setNew, setNew] d.site ≠ [] := by
  have hd := oneServer_reached [.obtain]
  obtain ⟨p, hp, -⟩ := hd.pooled
  have hf : setNew.Fits := ⟨by decide, .inr (by decide), by decide, by decide⟩
  obtain ⟨h1, h2⟩ := one_command_one_borrow hd hp
  obtain ⟨-, -, hs⟩ := h1 setNew hf
  have hn : (Order.acquiredAll [setNew, setNew] (oneServer [.obtain]).site).isEmpty = false := by
    decide +kernel
  refine ⟨_, p, hd, hp, hf, hs, (h2 [setNew, setNew]).1, fun he => ?_⟩
  rw [he] at hn
  cases hn

end HandleTable
end RedisGateway
