import RedisGateway.Proofs.Manager.Forwarding
import RedisGateway.Proofs.Manager.Making
import RedisGateway.Proofs.Manager.Secrecy

/-!
What callers get when a command fails. The kind of the client's failure decides, through whatever
line of descent it comes from the kinds that are told apart; a handle that cannot be had fails the
command as it is; and in every case the same clients are borrowed as before.
-/

namespace RedisGateway

/-! ## Ancestry -/

namespace FailureKind

/-- A kind is another one, or some parent of it descends from that one. -/
inductive Descends : FailureKind → FailureKind → Prop
  | self {k} : Descends k k
  | through {k p a} (hp : p ∈ k.parents) (hd : Descends p a) : Descends k a

variable {k p a : FailureKind}

theorem Descends.of_generations {n : Nat} (h : a ∈ generations n k) : k.Descends a := by
  induction n generalizing k with
  | zero =>
    rw [generations, List.mem_singleton] at h
    exact h ▸ .self
  | succ n ih =>
    rcases List.mem_cons.mp h with rfl | h
    · exact .self
    · obtain ⟨p, hp, h⟩ := List.mem_flatMap.mp h
      exact .through hp (ih h)

theorem Descends.of_lineage (h : a ∈ k.lineage) : k.Descends a := by
  induction k with
  | special name base ih =>
    rcases List.mem_cons.mp h with rfl | h
    · exact .self
    · exact .through List.mem_cons_self (ih h)
  | joint name first second ih ih' =>
    rcases List.mem_cons.mp h with rfl | h
    · exact .self
    · rcases List.mem_append.mp h with h | h
      · exact .through List.mem_cons_self (ih h)
      · exact .through (List.mem_cons_of_mem _ List.mem_cons_self) (ih' h)
  | _ => exact .of_generations h

theorem self_mem_lineage (k : FailureKind) : k ∈ k.lineage := by
  cases k <;> exact List.mem_cons_self

/-- A lineage goes on with the lineages of the parents: four generations are all that a kind with a
name of its own has. -/
theorem lineage_of_parent (hp : p ∈ k.parents) (h : a ∈ p.lineage) : a ∈ k.lineage := by
  cases k with
  | special name base =>
    cases List.mem_singleton.mp hp
    exact List.mem_cons_of_mem _ h
  | joint name first second =>
    rcases List.mem_cons.mp hp with rfl | hp
    · exact List.mem_cons_of_mem _ (List.mem_append_left _ h)
    · cases List.mem_singleton.mp hp
      exact List.mem_cons_of_mem _ (List.mem_append_right _ h)
  | _ =>
    revert a
    revert p
    decide

theorem Descends.mem_lineage (h : k.Descends a) : a ∈ k.lineage := by
  induction h with
  | self => exact self_mem_lineage _
  | through hp _ ih => exact lineage_of_parent hp ih

/-- The lineage that is computed has every ancestor and nothing else. -/
theorem isA_iff : k.isA a = true ↔ k.Descends a :=
  List.contains_iff_mem.trans ⟨.of_lineage, Descends.mem_lineage⟩

theorem isConnectivity_iff :
    k.isConnectivity = true ↔ k.Descends .connection ∨ k.Descends .timeout := by
  rw [isConnectivity, Bool.or_eq_true, isA_iff, isA_iff]

theorem isClientError_iff :
    k.isClientError = true ↔ k.Descends .client ∨ k.Descends .clusterClient := by
  rw [isClientError, Bool.or_eq_true, isA_iff, isA_iff]

end FailureKind

namespace Manager

/-! ## Managers in use -/

/-- A manager that was made some time ago. What is asked of it in the meantime may fail, and the
world that it works in goes on by itself, only that no client is ever taken for unopened again. -/
inductive Used : Site → Prop
  | created (plan : ManagerPlan) (w : World) : Used ⟨(create plan w).1, (create plan w).2⟩
  | operated {s} (hs : Used s) (o : Operation) : Used (o.run.run s).2
  | elsewhere {s} (hs : Used s) {w : World} (ho : s.world.remote.opened ≤ w.remote.opened) :
    Used ⟨s.manager, w⟩

/-- A manager without a pool, or one whose pool is at rest. -/
inductive Settled (s : Site) : Prop
  | unpooled (hn : s.manager.pool? = none)
  | lends (lent : ClientId → Prop) (hs : Lends lent s)

variable {s : Site} {lent : ClientId → Prop}

/-- A manager without a pool has not been initialized, or has a client that is open for good. -/
theorem facade_of_unpooled {m : Manager} (hn : m.pool? = none) :
    m.facade = none ∨ ∃ t c, m.facade = some ⟨t, .direct c⟩ := by
  obtain ⟨plan, facade, closed, registry⟩ := m
  cases facade with
  | none => exact .inl rfl
  | some f =>
    obtain ⟨t, backend⟩ := f
    cases backend with
    | direct c => exact .inr ⟨t, c, rfl⟩
    | pooled p => cases hn

/-- A manager without a pool stays as it is when handles are taken. -/
theorem handle_unpooled (hn : s.manager.pool? = none) : (handle.run s).2 = s := by
  obtain ⟨⟨plan, facade, closed, registry⟩, world⟩ := s
  rcases facade_of_unpooled hn with hf | ⟨t, c, hf⟩ <;> cases hf
  · rfl
  · cases closed <;> rfl

theorem release_unpooled (hn : s.manager.pool? = none) (h : Option Handle) :
    (release h).run s = (.ok (), s) := by
  obtain ⟨⟨⟨codec, topology, pooling, limits⟩, facade, closed, registry⟩, world⟩ := s
  rcases facade_of_unpooled hn with hf | ⟨t, c, hf⟩ <;> cases hf <;> cases pooling <;>
    cases h <;> rfl

/-- Clients that are opened later change nothing for those that are lent. -/
theorem Lends.later (hs : Lends lent s) {w : World}
    (ho : s.world.remote.opened ≤ w.remote.opened) : Lends lent ⟨s.manager, w⟩ := by
  obtain ⟨hp, t, p, hf, hr, hl⟩ := hs
  refine ⟨hp, t, p, hf, ⟨hr.apart, fun d hd => ?_, hr.creating, hr.returning⟩, hl⟩
  exact Nat.lt_of_lt_of_le (hr.known d hd) ho

theorem Lends.pooled (hs : Lends lent s) : ∃ l, Pooled l s := by
  obtain ⟨hp, t, p, hf, hr, -⟩ := hs
  exact ⟨_, hp, t, p, hf, rfl, hr⟩

/-- A pool that a call left at rest lends what is in use. -/
theorem Settled.leave {t : Topology} {p : ConnectionPool} {core : Pool.Core} {w : World}
    (hp : s.manager.plan.pooling = true) (hr : Pool.Rest (· < w.remote.opened) core) :
    Settled (leave s t p core w) :=
  .lends (· ∈ core.inUse) (.leave hp hr fun _ => Iff.rfl)

/-- A release never fails, whatever is released. -/
theorem Settled.release_ok (hs : Settled s) (h : Option Handle) :
    ((release h).run s).1 = .ok () := by
  cases hs with
  | unpooled hn => rw [release_unpooled hn]
  | lends lent hs =>
    cases h with
    | none => rw [hs.release_none]
    | some h =>
      -- the pool looks at the client only: one that is not lent is ignored, and never missed
      by_cases hl : lent h.client
      · obtain ⟨l, hp⟩ := hs.pooled
        obtain ⟨s', hr, -⟩ := hp.release ((HandleTable.mem_inUse hs).mpr hl)
        rw [hr]
      · obtain ⟨s', hr, -⟩ := hs.release_ignored hl
        rw [hr]

theorem handle_settled : handle.Keeps Settled := by
  intro s hs
  cases hs with
  | unpooled hn =>
    rw [handle_unpooled hn]
    exact .unpooled hn
  | lends lent hs =>
    rcases hs.handle with ⟨h, s', hr, -, hs⟩ | ⟨f, s', hr, hs⟩ <;> rw [hr] <;> exact .lends _ hs

theorem release_settled (h : Option Handle) : (release h).Keeps Settled := by
  intro s hs
  cases hs with
  | unpooled hn =>
    rw [release_unpooled hn]
    exact .unpooled hn
  | lends lent hs =>
    cases h with
    | none =>
      rw [hs.release_none]
      exact .lends _ hs
    | some h =>
      by_cases hl : lent h.client
      · exact .lends _ (hs.release hl)
      · obtain ⟨s', hr, -, -, hs⟩ := hs.release_ignored hl
        rw [hr]
        exact .lends _ hs

theorem Settled.elsewhere {s' : Site} (hs : Settled s)
    (hp : s'.manager.plan = s.manager.plan) (hf : s'.manager.facade = s.manager.facade)
    (ho : s'.world.remote.opened = s.world.remote.opened) : Settled s' := by
  cases hs with
  | unpooled hn =>
    rw [pool?, ← hf] at hn
    exact .unpooled hn
  | lends lent hs => exact .lends lent (hs.elsewhere hp hf ho)

theorem stable_settled : Stable fun _ : Unit => Settled :=
  .of_steps Settled.elsewhere (fun _ => handle_settled) fun h _ => release_settled h

/-- Executors open no pool. -/
theorem stable_unpooled : Stable fun (_ : Unit) (s : Site) => s.manager.pool? = none := by
  refine .of_steps (fun hn _ hf _ => ?_) (fun _ s hn => ?_) fun h _ s hn => ?_
  · rw [pool?, hf]
    exact hn
  · rw [handle_unpooled hn]
    exact hn
  · rw [release_unpooled hn]
    exact hn

/-- A pool is at rest again after a call of its own. -/
theorem onPool_settled {call : Pool.Surroundings World → Pool.Policy → Pool.Core → World →
      Pool.Result × Pool.Core × World}
    (hc : ∀ request policy core w, Pool.Rest (· < w.remote.opened) core →
      Pool.Rest (· < (call (ConnectionPool.surroundings request) policy core w).2.2.remote.opened)
        (call (ConnectionPool.surroundings request) policy core w).2.1) :
    (onPool call).Keeps Settled := by
  intro s hs
  cases hs with
  | unpooled hn =>
    obtain ⟨⟨plan, facade, closed, registry⟩, world⟩ := s
    rcases facade_of_unpooled hn with hf | ⟨t, c, hf⟩ <;> cases hf <;> exact .unpooled rfl
  | lends lent hs =>
    obtain ⟨hp, t, p, hf, hr, -⟩ := hs
    have hr' := hc p.request p.policy p.core s.world hr
    obtain ⟨⟨plan, facade, closed, registry⟩, world⟩ := s
    cases hf
    exact .leave (s := ⟨⟨plan, some ⟨t, .pooled p⟩, closed, registry⟩, world⟩) (t := t) (p := p)
      hp hr'

theorem closePool_settled : closePool.Keeps Settled := by
  intro s hs
  cases hs with
  | lends lent hs => exact .lends lent (closePool_keeps s hs)
  | unpooled hn =>
    obtain ⟨⟨plan, facade, closed, registry⟩, world⟩ := s
    rcases facade_of_unpooled hn with hf | ⟨t, c, hf⟩ <;> cases hf <;> exact .unpooled rfl

theorem close_settled : close.Keeps Settled := by
  intro s hs
  cases hs with
  | lends lent hs => exact .lends lent (close_keeps s hs)
  | unpooled hn =>
    obtain ⟨⟨plan, facade, closed, registry⟩, world⟩ := s
    cases closed with
    | true => exact .unpooled hn
    | false =>
      rcases facade_of_unpooled hn with hf | ⟨t, c, hf⟩ <;> cases hf
      · exact .unpooled rfl
      · exact Act.Keeps.bind (stable_settled.closeClient () c)
          (fun _ => stable_settled.note () .managerClosed) _ (.unpooled rfl)

/-- An initialization leaves the manager as it was, or gives it its client or a pool at rest. -/
theorem init_settled (hosts : String) (password : Value) (options : Options) :
    (init hosts password options).Keeps Settled := by
  intro s hs
  cases hs with
  | lends lent hs => exact .lends lent (init_keeps hosts password options s hs)
  | unpooled hn =>
    obtain ⟨r, s', hi⟩ : ∃ r s', (init hosts password options).run s = (r, s') := ⟨_, _, rfl⟩
    rw [hi]
    cases r with
    | error f =>
      have hm := (init_fails hi).1
      exact .unpooled (hm ▸ hn)
    | ok u =>
      by_cases hp : s.manager.plan.pooling = true
      · exact .lends _ (init_lends hp hi)
      · obtain ⟨-, f, hf, hfit⟩ := made_of_init hi
        obtain ⟨t, backend⟩ := f
        cases backend with
        | direct c =>
          refine .unpooled ?_
          rw [pool?, hf]
          rfl
        | pooled p => exact absurd hfit.2.1 hp

theorem operation_settled (o : Operation) : o.run.Keeps Settled := by
  cases o with
  | init hosts password options =>
    exact .bind (init_settled hosts password options) fun _ => .pure _
  | obtain => exact .bind handle_settled fun _ => .pure _
  | release h => exact .bind (release_settled h) fun _ => .pure _
  | send h call => exact .bind (stable_settled.send () h call) fun _ => .pure _
  | executor category => exact .bind (stable_settled.executor () category) fun _ => .pure _
  | command category name args named =>
    exact .bind (stable_settled.command () category name args named) fun _ => .pure _
  | borrow timeout =>
    refine .bind (onPool_settled fun request policy core w hr => ?_) fun _ => .pure _
    exact (hr.borrow (ConnectionPool.surroundings_inventive request) rfl).1
  | giveBack client =>
    refine .bind (onPool_settled fun request policy core w hr => ?_) fun _ => .pure _
    by_cases hc : client ∈ core.inUse
    · exact (hr.giveBack (ConnectionPool.surroundings_inventive request) hc rfl).1
    · rw [Pool.giveBack_ignored _ policy hc w]
      show Pool.Rest (· < (w.noteAll _).remote.opened) core
      rw [World.noteAll_remote]
      exact hr
  | look => exact .bind .get fun _ => .pure _
  | closePool => exact .bind closePool_settled fun _ => .pure _
  | close => exact .bind close_settled fun _ => .pure _

theorem Used.settled (hs : Used s) : Settled s := by
  induction hs with
  | created plan w => exact .unpooled rfl
  | operated _ o ih => exact operation_settled o _ ih
  | elsewhere _ ho ih =>
    cases ih with
    | unpooled hn => exact .unpooled hn
    | lends lent hs => exact .lends lent (hs.later ho)

/-! ## Failures of commands -/

/-- What the caller of a command gets for a failure of the client: it could not be reached, or the
server or the client refuses the command, or the failure is none of these and is passed on. -/
inductive Translated (command : String) (e : Failure) : Except Fault Value → Prop
  | lost {f} (hk : e.kind.Descends .connection ∨ e.kind.Descends .timeout)
      (hf : f.family? = some .acquisition) (hc : f.cause? = some e) :
      Translated command e (.error f)
  | refused {f} (hk : ¬(e.kind.Descends .connection ∨ e.kind.Descends .timeout))
      (hk' : e.kind.Descends .client ∨ e.kind.Descends .clusterClient)
      (hf : f.family? = some .commandExecution) (hc : f.cause? = some e)
      (hd : f.detail? = some ("command", .text command)) : Translated command e (.error f)
  | passedOn (hk : ¬(e.kind.Descends .connection ∨ e.kind.Descends .timeout))
      (hk' : ¬(e.kind.Descends .client ∨ e.kind.Descends .clusterClient)) :
      Translated command e (.error (.passedOn e))

theorem resultOf_translated (command : String) (e : Failure) :
    Translated command e (resultOf command (.error e)) := by
  simp only [resultOf]
  -- a kind may descend from both: what could not be reached comes first
  by_cases hk : e.kind.isConnectivity = true
  · rw [if_pos hk]
    exact .lost (FailureKind.isConnectivity_iff.mp hk) rfl rfl
  · rw [if_neg hk]
    have hn := mt FailureKind.isConnectivity_iff.mpr hk
    by_cases hk' : e.kind.isClientError = true
    · rw [if_pos hk']
      exact .refused hn (FailureKind.isClientError_iff.mp hk') rfl rfl rfl
    · rw [if_neg hk']
      exact .passedOn hn (mt FailureKind.isClientError_iff.mpr hk')

/-- What a command comes to in every case. -/
structure Translates (call : Call) (s : Site) : Prop where
  /-- What keeps the handle from being had is not translated again, and nothing is sent. -/
  unacquired : ∀ {f s₁}, handle.run s = (.error f, s₁) → (execute call).run s = (.error f, s₁)
  replied : ∀ {h s₁ v}, handle.run s = (.ok h, s₁) →
    (s₁.world.remote.send h.client call).1 = .ok v → ((execute call).run s).1 = .ok v
  raised : ∀ {h s₁ e}, handle.run s = (.ok h, s₁) →
    (s₁.world.remote.send h.client call).1 = .error e →
    Translated call.command e ((execute call).run s).1
  kept : ∀ c,
    c ∈ HandleTable.inUse ((execute call).run s).2.manager ↔ c ∈ HandleTable.inUse s.manager

/-- A caller with a handle gets what the client's answer is worded as: the release of the handle
adds nothing to it. -/
theorem Settled.execute_result (hs : Settled s) (call : Call) {h : Handle} {s₁ : Site}
    (hh : handle.run s = (.ok h, s₁)) : ((execute call).run s).1 =
      resultOf call.command (s₁.world.remote.send h.client call).1 := by
  have hs₁ := handle_settled s hs
  rw [hh] at hs₁
  obtain ⟨s₂, hx, hm, hw⟩ := exchange_run h call s₁
  -- sending touches neither the pool nor the number of clients
  have hs₂ : Settled s₂ := by
    refine hs₁.elsewhere (congrArg Manager.plan hm) (congrArg Manager.facade hm) ?_
    rw [hw, Remote.send_opened]
  have hr : (release (some h)).run s₂ = (.ok (), ((release (some h)).run s₂).2) :=
    Prod.ext (hs₂.release_ok (some h)) rfl
  rw [execute, withHandle, Act.run_bind, hh]
  exact congrArg Prod.fst (thenAlways_run hx hr)

theorem Settled.execute_kept (hs : Settled s) (call : Call) (c : ClientId) :
    c ∈ HandleTable.inUse ((execute call).run s).2.manager ↔ c ∈ HandleTable.inUse s.manager := by
  cases hs with
  | unpooled hn =>
    have hn' := stable_unpooled.execute () call s hn
    rw [HandleTable.inUse, HandleTable.inUse, hn, hn']
  | lends lent hs =>
    have hs' := stable_lends.execute lent call s hs
    rw [HandleTable.mem_inUse hs, HandleTable.mem_inUse hs']

/-- Failures of commands are translated exactly. Whatever was done with a manager, with or without a
pool, and whatever is sent: a failure of a kind that descends from a lost connection or a timeout
becomes an acquisition fault, any other one that descends from the errors of the client or of the
cluster client becomes an execution fault that names the command, both with the failure as their
cause, and everything else is passed on as it is. What keeps the handle from being had reaches the
caller unchanged. The same clients are borrowed afterwards as before. -/
theorem execute_translates (hs : Used s) (call : Call) : Translates call s := by
  constructor
  · intro f s₁ hh
    rw [execute, withHandle, Act.run_bind, hh]
  · intro h s₁ v hh ho
    rw [hs.settled.execute_result call hh, ho]
    rfl
  · intro h s₁ e hh ho
    rw [hs.settled.execute_result call hh, ho]
    exact resultOf_translated call.command e
  · exact hs.settled.execute_kept call

theorem eq_ok_of_toOption {α : Type} {r : Except Fault α} {a : α} (h : r.toOption = some a) :
    r = .ok a := by
  cases r with
  | error f => cases h
  | ok b => exact congrArg _ (Option.some.inj h)

/-- The failure that an answer of a client is, if it is one. -/
def failure? : Outcome → Option Failure
  | .error e => some e
  | .ok _ => none

theorem eq_of_failure? {answer : Outcome} {e : Failure} (h : failure? answer = some e) :
    answer = .error e := by
  cases answer with
  | ok v => cases h
  | error e' => exact congrArg _ (Option.some.inj h)

/-- The server refuses a command, too late. -/
def lateRefusal : Failure := ⟨.joint "LateRefusal" .response .timeout, "no"⟩

/-- A manager with a pool, the server of which refuses the next reading of a key. -/
def refusedReader : Site :=
  let w : World := { remote := { replies := [("get", [.error lateRefusal])] } }
  let (m, w) := create { pooling := true } w
  ((Operation.init "h:1" (.text "") .absent).run.run ⟨m, w⟩).2

/-- A refusal that is a timeout as well counts as a lost connection. -/
theorem execute_translates_of_refusedReader :
    Used refusedReader ∧ Translates ⟨"get", [.text "k"], []⟩ refusedReader ∧
      ∃ f, ((execute ⟨"get", [.text "k"], []⟩).run refusedReader).1 = .error f ∧
        f.family? = some .acquisition ∧ f.cause? = some lateRefusal := by
  have hu : Used refusedReader := .operated (.created _ _) _
  have ht := execute_translates hu ⟨"get", [.text "k"], []⟩
  have hk : lateRefusal.kind.Descends .timeout :=
    .through (List.mem_cons_of_mem _ List.mem_cons_self) .self
  have hh : handle.run refusedReader =
      (.ok ⟨.standalone, 0, true⟩, (handle.run refusedReader).2) :=
    Prod.ext (eq_ok_of_toOption (by decide +kernel)) rfl
  have ho : ((handle.run refusedReader).2.world.remote.send 0 ⟨"get", [.text "k"], []⟩).1 =
      .error lateRefusal :=
    eq_of_failure? (by decide +kernel)
  refine ⟨hu, ht, ?_⟩
  have hr := ht.raised hh ho
  generalize ((execute ⟨"get", [.text "k"], []⟩).run refusedReader).1 = r at hr
  cases hr with
  | lost _ hf hc => exact ⟨_, rfl, hf, hc⟩
  | refused hn => exact absurd (.inr hk) hn
  | passedOn hn => exact absurd (.inr hk) hn

end Manager
end RedisGateway
