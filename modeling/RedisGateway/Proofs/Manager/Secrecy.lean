import RedisGateway.Proofs.Manager.Redaction
import RedisGateway.Settings.Document

/-!
Passwords stay with the clients. Managers that share a world are made, initialized, used and closed,
their pools are called directly, and the world changes its answers. Two such runs that differ only
in their passwords give their callers the same, leave the same records in the log, and ask the same
of the remote side but for what is under the name of the password.
-/

namespace RedisGateway

/-! ## What callers do -/

/-- What can be read off a manager. -/
structure Manager.View where
  plan : ManagerPlan
  initialized : Bool
  closed : Bool
  stats : Option Pool.Stats
  deriving DecidableEq, Repr

def Manager.view (m : Manager) : View :=
  { plan := m.plan, initialized := m.facade.isSome, closed := m.closed, stats := m.stats }

/-- A call of the pool of a manager that has one. -/
def Manager.onPool (call : Pool.Surroundings World → Pool.Policy → Pool.Core → World →
    Pool.Result × Pool.Core × World) : Act Site (Option ClientId) := do
  match (← get).manager.facade with
  | some ⟨topology, .pooled p⟩ =>
    onFacade ⟨topology, .pooled p⟩ fun f w =>
      let (result, p, w) := p.perform call w
      (result, { f with backend := .pooled p }, w)
  | _ => return none

/-- What is asked of a manager. -/
inductive Operation where
  | init (hosts : String) (password : Value) (options : Options)
  | obtain
  | release (h : Option Handle)
  | send (h : Handle) (call : Call)
  | executor (category : Value)
  | command (category : Value) (name : String) (args : List Value) (named : Fields)
  /-- Borrows from the pool itself. -/
  | borrow (timeout : Option Pool.Timeout)
  /-- Gives something back to the pool itself. -/
  | giveBack (client : ClientId)
  | look
  | closePool
  | close

/-- What a caller gets. -/
inductive Answer where
  | done
  | handle (h : Handle)
  | outcome (o : Outcome)
  | executor (e : Executor)
  | value (v : Value)
  | client (c : Option ClientId)
  | view (v : Manager.View)

namespace Operation

def run : Operation → Act Site Answer
  | .init hosts password options => do
    Manager.init hosts password options
    return .done
  | .obtain => return .handle (← Manager.handle)
  | .release h => do
    Manager.release h
    return .done
  | .send h call => return .outcome (← Manager.send h call)
  | .executor category => return .executor (← Manager.executor category)
  | .command category name args named =>
    return .value (← Manager.command category name args named)
  | .borrow timeout =>
    return .client (← Manager.onPool fun around policy => Pool.borrow around policy timeout)
  | .giveBack client =>
    return .client (← Manager.onPool fun around policy => Pool.giveBack around policy client)
  | .look => return .view (← get).manager.view
  | .closePool => do
    Manager.closePool
    return .done
  | .close => do
    Manager.close
    return .done

def redacted : Operation → Operation
  | .init hosts password options => .init hosts password.redacted options
  | o => o

end Operation

/-- Managers in the order in which they were made, and the world that they share. -/
structure Premises where
  managers : List Manager := []
  world : World := {}

/-- What happens on the premises. -/
inductive Instruction where
  | create (plan : ManagerPlan)
  | ofSettings (s : Settings)
  /-- Asks something of the manager with a number. -/
  | on (n : Nat) (operation : Operation)
  /-- The remote side changes its answers. -/
  | answers (refusal : Option Failure) (upcoming : List (Option Failure))
      (scripts : List (ClientId × ClientScript)) (replies : List (String × List Outcome))

namespace Premises

def add (e : Premises) (m : Manager) (world : World) : Premises :=
  { managers := e.managers ++ [m], world }

/-- What the manager with a number comes to and leaves behind. -/
def settle (e : Premises) (n : Nat) (out : Except Fault Answer × Site) :
    Except Fault Answer × Premises :=
  (out.1, { managers := e.managers.set n out.2.manager, world := out.2.world })

/-- A manager is made and joins the others, or is not made after all. -/
def receive (e : Premises) : Except Fault Manager × World → Except Fault Answer × Premises
  | (.ok m, world) => (.ok .done, e.add m world)
  | (.error f, world) => (.error f, { e with world })

/-- Carries out an instruction. One for a manager that is not there comes to nothing. -/
def carryOut (e : Premises) : Instruction → Except Fault Answer × Premises
  | .create plan =>
    let (m, world) := Manager.create plan e.world
    (.ok .done, e.add m world)
  | .ofSettings s => e.receive (Manager.ofSettings s e.world)
  | .on n operation => match e.managers[n]? with
    | some m => e.settle n (operation.run.run ⟨m, e.world⟩)
    | none => (.ok .done, e)
  | .answers refusal upcoming scripts replies =>
    let remote := { e.world.remote with refusal, upcoming, scripts, replies }
    (.ok .done, { e with world := { e.world with remote } })

/-- Carries out instructions one after another: what each one comes to, and what is left. -/
def carryOutAll (e : Premises) : List Instruction → List (Except Fault Answer) × Premises
  | [] => ([], e)
  | i :: rest =>
    let (answer, e) := e.carryOut i
    let (answers, e) := e.carryOutAll rest
    (answer :: answers, e)

def redacted (e : Premises) : Premises := ⟨e.managers.map Manager.redacted, e.world.redacted⟩

end Premises

/-! ## With passwords redacted -/

def Settings.withPassword (s : Settings) (password : String) : Settings :=
  { s with connection := { s.connection with password } }

/-- The settings with their password redacted, if it counts. -/
def Settings.redacted (s : Settings) : Settings :=
  if Text.allBlank s.connection.password then s else s.withPassword redaction

/-- Redacted settings are settings with another password, and their password is the redacted one. -/
theorem Settings.redacted_eq (s : Settings) : ∃ p, s.redacted = s.withPassword p ∧
    (Value.text s.connection.password).redacted = .text p := by
  unfold Settings.redacted
  by_cases hb : Text.allBlank s.connection.password = true
  · -- a blank password counts for none, and stays
    refine ⟨s.connection.password, if_pos hb, ?_⟩
    simp [Value.redacted, Transport.textOf, Value.looseText?, LooseText.allBlank, hb]
  · exact ⟨redaction, if_neg hb,
      LooseText.redacted_value (p := .plain _) (Bool.eq_false_iff.mpr hb)⟩

def Instruction.redacted : Instruction → Instruction
  | .ofSettings s => .ofSettings s.redacted
  | .on n operation => .on n operation.redacted
  | i => i

namespace Manager

theorem view_redacted (m : Manager) : m.redacted.view = m.view := by
  obtain ⟨plan, facade, closed, registry⟩ := m
  cases facade with
  | none => rfl
  | some f =>
    obtain ⟨t, b⟩ := f
    cases b <;> rfl

theorem onPool_redacted (call : Pool.Surroundings World → Pool.Policy → Pool.Core → World →
      Pool.Result × Pool.Core × World)
    (h : ∀ (p : ConnectionPool) (w : World),
      call (ConnectionPool.surroundings p.request.redacted) p.policy p.core w.redacted =
        Pool.seen World.redacted (call (ConnectionPool.surroundings p.request) p.policy p.core w)) :
    (onPool call).Maps Site.redacted id (onPool call) := by
  refine .bind .get fun s => ?_
  obtain ⟨⟨plan, facade, closed, registry⟩, world⟩ := s
  cases facade with
  | none => exact .pure rfl
  | some f =>
    obtain ⟨t, b⟩ := f
    cases b with
    | direct client => exact .pure rfl
    | pooled p =>
      refine onFacade_redacted (f := ⟨t, .pooled p⟩) fun w => ?_
      simp only [perform_redacted call (h p w)]
      rfl

/-- A manager from settings that has yet to be initialized. -/
def begun (s : Settings) (w : World) : Site := ⟨(create (planOf s) w).1, (create (planOf s) w).2⟩

theorem ofSettings_withPassword (s : Settings) (password : String) (w : World) :
    ofSettings (s.withPassword password) w =
      let out := (init s.connection.hosts (.text password) (.record s.connection.options)).run
        (begun s w)
      (out.1.map fun _ => out.2.manager, out.2.world) := rfl

theorem ofSettings_redacted (s : Settings) (w : World) : ofSettings s.redacted w.redacted =
    ((ofSettings s w).1.map Manager.redacted, (ofSettings s w).2.redacted) := by
  obtain ⟨p, hv, hp⟩ := s.redacted_eq
  -- the password is all that the two initializations have different
  have hi := init_redacted s.connection.hosts (.text s.connection.password)
    (.record s.connection.options) (begun s w)
  rw [hp, Except.map_id] at hi
  have hs : ofSettings s w = _ := ofSettings_withPassword s s.connection.password w
  rw [hs, hv, ofSettings_withPassword, show begun s w.redacted = (begun s w).redacted from rfl, hi]
  generalize (init s.connection.hosts (.text s.connection.password)
    (.record s.connection.options)).run (begun s w) = out
  obtain ⟨r, site⟩ := out
  cases r <;> rfl

end Manager

theorem Operation.run_redacted (o : Operation) : o.run.Maps Site.redacted id o.redacted.run := by
  cases o with
  | init hosts password options =>
    exact .bind (Manager.init_redacted hosts password options) fun _ => .pure rfl
  | obtain => exact .bind Manager.handle_redacted fun _ => .pure rfl
  | release h => exact .bind (Manager.release_redacted h) fun _ => .pure rfl
  | send h call => exact .bind (Manager.send_redacted h call) fun _ => .pure rfl
  | executor category => exact .bind (Manager.executor_redacted category) fun _ => .pure rfl
  | command category name args named =>
    exact .bind (Manager.command_redacted category name args named) fun _ => .pure rfl
  | borrow timeout =>
    refine .bind (Manager.onPool_redacted _ fun p w => ?_) fun _ => .pure rfl
    exact Pool.borrow_seen (ConnectionPool.surroundings_redacted p.request) p.policy timeout p.core
      w
  | giveBack client =>
    refine .bind (Manager.onPool_redacted _ fun p w => ?_) fun _ => .pure rfl
    exact Pool.giveBack_seen (ConnectionPool.surroundings_redacted p.request) p.policy client p.core
      w
  | look => exact .bind .get fun s => .pure (congrArg Answer.view s.manager.view_redacted)
  | closePool => exact .bind Manager.closePool_redacted fun _ => .pure rfl
  | close => exact .bind Manager.close_redacted fun _ => .pure rfl

namespace Premises

theorem add_redacted (e : Premises) (m : Manager) (w : World) :
    e.redacted.add m.redacted w.redacted = (e.add m w).redacted := by
  simp [add, redacted]

theorem settle_redacted (e : Premises) (n : Nat) (out : Except Fault Answer × Site) :
    e.redacted.settle n (out.1, out.2.redacted) =
      ((e.settle n out).1, (e.settle n out).2.redacted) := by
  simp only [settle, redacted, List.map_set]
  rfl

theorem receive_redacted (e : Premises) (out : Except Fault Manager × World) :
    e.redacted.receive (out.1.map Manager.redacted, out.2.redacted) =
      ((e.receive out).1, (e.receive out).2.redacted) := by
  obtain ⟨made, w⟩ := out
  cases made with
  | ok m => exact congrArg (Prod.mk _) (e.add_redacted m w)
  | error f => rfl

theorem carryOut_redacted (e : Premises) (i : Instruction) :
    e.redacted.carryOut i.redacted = ((e.carryOut i).1, (e.carryOut i).2.redacted) := by
  cases i with
  | create plan =>
    exact congrArg (Prod.mk _) (e.add_redacted { plan } (Manager.create plan e.world).2)
  | answers refusal upcoming scripts replies => rfl
  | ofSettings s =>
    have h := Manager.ofSettings_redacted s e.world
    exact (congrArg e.redacted.receive h).trans (receive_redacted e _)
  | on n o =>
    have hm : e.redacted.managers[n]? = e.managers[n]?.map Manager.redacted := List.getElem?_map
    simp only [carryOut, Instruction.redacted, hm]
    cases e.managers[n]? with
    | none => rfl
    | some m =>
      have h := o.run_redacted ⟨m, e.world⟩
      rw [Except.map_id] at h
      exact (congrArg (e.redacted.settle n) h).trans (settle_redacted e n _)

theorem carryOutAll_redacted (e : Premises) (is : List Instruction) :
    e.redacted.carryOutAll (is.map Instruction.redacted) =
      ((e.carryOutAll is).1, (e.carryOutAll is).2.redacted) := by
  induction is generalizing e with
  | nil => rfl
  | cons i rest ih => simp only [List.map_cons, carryOutAll, carryOut_redacted, ih]

end Premises

/-! ## Two runs -/

/-- Two operations that differ at most in a password, which counts in either. -/
inductive Operation.SameButPassword : Operation → Operation → Prop
  | same {o} : SameButPassword o o
  | init {hosts options} {p p' : LooseText} (hp : p.allBlank = false) (hp' : p'.allBlank = false) :
      SameButPassword (.init hosts p.value options) (.init hosts p'.value options)

/-- The same of instructions. -/
inductive Instruction.SameButPassword : Instruction → Instruction → Prop
  | same {i} : SameButPassword i i
  | on {n o o'} (h : o.SameButPassword o') : SameButPassword (.on n o) (.on n o')
  | ofSettings {s p p'} (hp : Text.allBlank p = false) (hp' : Text.allBlank p' = false) :
      SameButPassword (.ofSettings (.withPassword s p)) (.ofSettings (.withPassword s p'))

theorem Operation.SameButPassword.redacted {o o' : Operation} (h : o.SameButPassword o') :
    o'.redacted = o.redacted := by
  cases h with
  | same => rfl
  | init hp hp' =>
    simp only [Operation.redacted, LooseText.redacted_value hp, LooseText.redacted_value hp']

theorem Settings.redacted_withPassword (s : Settings) {p : String} (hp : Text.allBlank p = false) :
    (s.withPassword p).redacted = s.withPassword redaction := by
  have hb : ¬Text.allBlank (s.withPassword p).connection.password = true := by
    simpa [withPassword] using hp
  exact if_neg hb

theorem Instruction.SameButPassword.redacted {i i' : Instruction} (h : i.SameButPassword i') :
    i'.redacted = i.redacted := by
  cases h with
  | same => rfl
  | @on n _ _ h => exact congrArg (Instruction.on n) h.redacted
  | ofSettings hp hp' =>
    simp only [Instruction.redacted, Settings.redacted_withPassword _ hp,
      Settings.redacted_withPassword _ hp']

/-- What callers get and what is left with passwords redacted do not depend on passwords. -/
theorem Premises.carryOutAll_alike {is is' : List Instruction}
    (h : List.Forall₂ Instruction.SameButPassword is is') (e : Premises) :
    (e.carryOutAll is').1 = (e.carryOutAll is).1 ∧
      (e.carryOutAll is').2.redacted = (e.carryOutAll is).2.redacted := by
  have hv : is'.map Instruction.redacted = is.map Instruction.redacted := by
    induction h with
    | nil => rfl
    | cons hi _ ih => rw [List.map_cons, List.map_cons, hi.redacted, ih]
  have h1 := e.carryOutAll_redacted is
  rw [← hv, e.carryOutAll_redacted is'] at h1
  exact Prod.mk.inj h1

/-- The line that shows the configuration of an endpoint. -/
theorem Transport.describe_build (host : String) (port : Int) (options : Options)
    {p p' : LooseText} (hp : p.allBlank = false) (hp' : p'.allBlank = false) :
    (build host port p'.value options).map describe =
      (build host port p.value options).map describe := by
  have shown : ∀ password : Value, (build host port password options).map describe =
      (build host port password.redacted options).map describe := by
    intro password
    rw [build_redacted]
    cases build host port password options <;> rfl
  rw [shown, shown p.value, LooseText.redacted_value hp, LooseText.redacted_value hp']

/-- The document of settings does not show which password it leaves out. -/
theorem Settings.toDocument_withPassword (s : Settings) {p p' : String} (hp : p ≠ "")
    (hp' : p' ≠ "") : (s.withPassword p').toDocument = (s.withPassword p).toDocument := by
  have masked : ∀ {p : String}, p ≠ "" →
      (s.withPassword p).connection.masked = (s.withPassword mask).connection := by
    intro p hp
    exact if_neg (by simpa [withPassword] using hp)
  simp only [toDocument, entries, masked hp, masked hp']
  rfl

/-- No password is observed but by the clients. Where two runs differ only in their passwords, every
operation comes to the same, be it a value or a fault, the records of the log are the same, and what
was asked of the remote side is the same but for what is under the name of the password. The line
that shows a configuration and the document of settings do not tell one password from another. -/
theorem password_unobservable {is is' : List Instruction}
    (h : List.Forall₂ Instruction.SameButPassword is is') (w : World) :
    (Premises.carryOutAll { world := w } is').1 = (Premises.carryOutAll { world := w } is).1 ∧
    (Premises.carryOutAll { world := w } is').2.world.journal =
      (Premises.carryOutAll { world := w } is).2.world.journal ∧
    (Premises.carryOutAll { world := w } is').2.world.remote.events.map Event.redacted =
      (Premises.carryOutAll { world := w } is).2.world.remote.events.map Event.redacted ∧
    (∀ host port options (p p' : LooseText), p.allBlank = false → p'.allBlank = false →
      (Transport.build host port p'.value options).map Transport.describe =
        (Transport.build host port p.value options).map Transport.describe) ∧
    ∀ (s : Settings) p p', p ≠ "" → p' ≠ "" →
      (s.withPassword p').toDocument = (s.withPassword p).toDocument := by
  obtain ⟨h1, h2⟩ := Premises.carryOutAll_alike h { world := w }
  have hj := congrArg (fun e => e.world.journal) h2
  have he := congrArg (fun e => e.world.remote.events) h2
  refine ⟨h1, hj, he, ?_, ?_⟩
  · intro host port options p p' hp hp'
    exact Transport.describe_build host port options hp hp'
  · intro s p p' hp hp'
    exact s.toDocument_withPassword hp hp'

/-- A pool of one client that is lent out and asked for once more, and a client of a cluster that
the settings ask for. -/
def busyDay (password : String) : List Instruction :=
  [.create { pooling := true, limits := { maxTotal := 1, testOnBorrow := true } },
   .on 0 (.init "h:1" (.text password) .absent), .on 0 .obtain, .on 0 (.borrow (some (.whole 0))),
   .on 0 (.release (some ⟨.standalone, 0, true⟩)), .on 0 .obtain,
   .ofSettings (({ connection := { hosts := "a,b", cluster := true } } : Settings).withPassword
     password),
   .answers (some ⟨.authentication, "no"⟩) [] [] [], .on 0 .look, .on 1 .close, .on 0 .close]

/-- Two clients are opened, either with its password. -/
theorem password_unobservable_of_busyDay :
    List.Forall₂ Instruction.SameButPassword (busyDay "one") (busyDay "two") ∧
    (Premises.carryOutAll {} (busyDay "one")).2.world.remote.opened = 2 ∧
    (Premises.carryOutAll {} (busyDay "two")).1 = (Premises.carryOutAll {} (busyDay "one")).1 ∧
    (Premises.carryOutAll {} (busyDay "two")).2.world.journal =
      (Premises.carryOutAll {} (busyDay "one")).2.world.journal ∧
    (Premises.carryOutAll {} (busyDay "two")).2.world.remote.events.map Event.redacted =
      (Premises.carryOutAll {} (busyDay "one")).2.world.remote.events.map Event.redacted := by
  have hinit : Operation.SameButPassword (.init "h:1" (.text "one") .absent)
      (.init "h:1" (.text "two") .absent) :=
    @Operation.SameButPassword.init _ _ (.plain "one") (.plain "two") (by decide) (by decide)
  have h : List.Forall₂ Instruction.SameButPassword (busyDay "one") (busyDay "two") :=
    .cons .same (.cons (.on hinit) (.cons .same (.cons .same
      (.cons .same (.cons .same (.cons (.ofSettings (by decide) (by decide)) (.cons .same
        (.cons .same (.cons .same (.cons .same .nil))))))))))
  obtain ⟨h1, h2, h3, -⟩ := password_unobservable h {}
  exact ⟨h, by decide +kernel, h1, h2, h3⟩

end RedisGateway
