import RedisGateway.Proofs.Command.Retrieval
import RedisGateway.Proofs.Manager.Script

/-!
Calls for executors beside everything else that happens at a manager. Any number of them run side by
side, and between the turns of one of them others have theirs, the manager is initialized or closed,
and commands are sent. There is one executor for each category all the same.
-/

namespace RedisGateway

/-! ## The registry at a manager in use -/

theorem Registry.obtain_known {r : Registry} {c : Category} {e : Executor}
    (h : r.find? c = some e) : (r.obtain c).2 = r := by
  rw [obtain, h]

/-- Nothing but the call of a command has anything to do with the registry. -/
theorem Stage.Transition.registry {m m' : Manager} {stage next : Stage}
    (g : Stage.Transition m stage m' next) : m'.registry = m.registry ∨
      ∃ o, stage = .starting (.command o) ∧ m'.registry = (m.registry.obtain o.category).2 := by
  cases g with
  | init ha hc =>
    refine .inl ?_
    cases ha with
    | failed hm => rw [hm]
    | succeeded ho hf hm => rw [hm]
  | misfit | fit => exact .inr ⟨_, rfl, rfl⟩
  | _ => exact .inl rfl

theorem ManagerSystem.Step.registry {o o' : ManagerSystem} {h : ManagerSystem.Happening}
    (st : ManagerSystem.Step o h o') :
    o'.manager.registry = o.manager.registry ∨
      ∃ v x order, h = .look v ∧ o.callers[v]? = some x ∧ x.stage = .starting (.command order) ∧
        o'.manager.registry = (o.manager.registry.obtain order.category).2 := by
  cases st with
  | look hv hm =>
    rcases (Stage.transition_of_look hm o.manager).registry with hr | ⟨order, hs, hr⟩
    · exact .inl hr
    · exact .inr ⟨_, _, order, rfl, hv, hs, hr⟩
  | establish hv hm hc he hi =>
    rcases (Stage.transition_of_establish hm hi).registry with hr | ⟨order, hs, hr⟩
    · exact .inl hr
    · rw [hs] at hm
      cases hm
  | _ => exact .inl rfl

/-! ## Calls side by side -/

/-- A call for an executor. -/
structure ExecutorCall where
  name : CategoryName
  phase : Retrieval := .naming

/-- A manager in use, with the calls for its executors. -/
structure ExecutorSystem where
  system : ManagerSystem
  /-- The call that holds the lock of the registry. -/
  holder : Option Nat := none
  calls : List ExecutorCall := []
  /-- Every executor that the manager has made, in order. -/
  made : List Executor := []

namespace ExecutorSystem

/-- A manager that was just made. -/
def fresh (plan : ManagerPlan) : ExecutorSystem := { system := .fresh plan }

def registry (a : ExecutorSystem) : Registry := a.system.manager.registry

def cache (a : ExecutorSystem) : ExecutorCache := ⟨a.registry, a.holder, a.made⟩

def ask (a : ExecutorSystem) (name : CategoryName) : ExecutorSystem :=
  { a with calls := a.calls ++ [{ name }] }

/-- The registry has changed. -/
def file (a : ExecutorSystem) (b : ExecutorCache) : ExecutorSystem :=
  { a with
    system := { a.system with manager := { a.system.manager with registry := b.registry } }
    holder := b.holder, made := b.made }

def put (a : ExecutorSystem) (i : Nat) (x : ExecutorCall) : ExecutorSystem :=
  { a with calls := a.calls.set i x }

/-- Some call has returned the executor of a category. -/
def hasGiven (a : ExecutorSystem) (c : Category) : Bool :=
  a.calls.any fun x => match x.phase with
    | .ended (.ok e) => e.category = c
    | _ => false

/-- Commands are called on executors, so whoever calls one has got the executor before. -/
def permits (a : ExecutorSystem) : ManagerSystem.Happening → Bool
  | .look v => match a.system.callers[v]? with
    | some x => match x.stage with
      | .starting (.command o) => a.hasGiven o.category
      | _ => true
    | none => true
  | _ => true

/-- What can happen. -/
inductive Happening where
  | ask (name : CategoryName)
  /-- A call for an executor has a turn. -/
  | turn (i : Nat)
  | system (h : ManagerSystem.Happening)

inductive Step : ExecutorSystem → Happening → ExecutorSystem → Prop where
  | ask {a name} : Step a (.ask name) (a.ask name)
  | turn {a i x phase b} (hx : a.calls[i]? = some x)
      (ht : x.phase.turn? x.name i a.cache = some (phase, b)) :
      Step a (.turn i) ((a.file b).put i { x with phase })
  | system {a h o} (hp : a.permits h = true) (st : ManagerSystem.Step a.system h o) :
      Step a (.system h) { a with system := o }

/-- Any number of steps. -/
inductive Leads : ExecutorSystem → ExecutorSystem → Prop where
  | refl {a} : Leads a a
  | step {a a₁ a₂ h} : Leads a a₁ → Step a₁ h a₂ → Leads a a₂

/-- What can become of a manager from its making on. -/
def Reachable (plan : ManagerPlan) (a : ExecutorSystem) : Prop := Leads (fresh plan) a

/-! ## What every step keeps -/

end ExecutorSystem

/-- What a call has come to fits the name that it was given and the executors that were made. -/
def ExecutorCall.Fits (made : List Executor) (x : ExecutorCall) : Prop :=
  match x.phase with
  | .naming => True
  | .looking c | .waiting c | .lookingAgain c | .making c => x.name.Means c
  | .leaving e | .ended (.ok e) => x.name.Means e.category ∧ e ∈ made
  | .ended (.error f) => x.name.category? = .error f

theorem ExecutorCall.Fits.mono {made made' : List Executor} {x : ExecutorCall} (h : x.Fits made)
    (hm : ∀ e ∈ made, e ∈ made') : x.Fits made' := by
  obtain ⟨name, phase⟩ := x
  cases phase with
  | leaving e => exact ⟨h.1, hm e h.2⟩
  | ended r =>
    cases r with
    | ok e => exact ⟨h.1, hm e h.2⟩
    | error f => exact h
  | _ => exact h

/-- The executors that were made are those that are stored. -/
structure ExecutorCache.Sound (b : ExecutorCache) : Prop where
  stored : b.made = b.registry.executors
  once : (b.made.map (·.category)).Nodup

theorem ExecutorCache.Sound.eq {b : ExecutorCache} (h : b.Sound) {e e' : Executor} (he : e ∈ b.made)
    (he' : e' ∈ b.made) (hc : e.category = e'.category) : e = e' :=
  List.inj_on_of_nodup_map h.once he he' hc

theorem ExecutorCache.Sound.known {b : ExecutorCache} (h : b.Sound) {e : Executor}
    (he : e ∈ b.made) :
    b.registry.find? e.category = some e := by
  cases hf : b.registry.find? e.category with
  | none => exact absurd rfl (Registry.find?_eq_none.mp hf e (h.stored ▸ he))
  | some e' =>
    obtain ⟨hc, he'⟩ := Registry.find?_eq_some hf
    rw [h.eq (h.stored ▸ he') he hc]

/-- The first executor of a category is added. -/
theorem ExecutorCache.Sound.make {b : ExecutorCache} (h : b.Sound) {c : Category}
    (hc : b.registry.find? c = none) : (b.make c).Sound := by
  have hstore := Registry.store_first (show b.registry.find? (b.next c).category = none from hc)
  refine ⟨?_, ?_⟩
  · simp only [ExecutorCache.make, hstore, h.stored]
  · simp only [ExecutorCache.make, List.map_append, List.map_singleton]
    refine List.nodup_append.mpr ⟨h.once, List.nodup_singleton _, ?_⟩
    intro d hd d' hd' heq
    obtain ⟨e, he, rfl⟩ := List.mem_map.mp hd
    obtain rfl := List.mem_singleton.mp hd'
    exact Registry.find?_eq_none.mp hc e (h.stored ▸ he) heq

namespace ExecutorSystem

/-- What holds of the calls and of the registry at any time. -/
structure InOrder (a : ExecutorSystem) : Prop where
  sound : a.cache.Sound
  /-- One call holds the lock at most, and it is the one that is amid its second look. -/
  holder : ∀ (i : Nat) (x : ExecutorCall), a.calls[i]? = some x →
    (x.phase.holds = true ↔ a.holder = some i)
  present : ∀ i : Nat, a.holder = some i → i < a.calls.length
  /-- What a call is about to make is not there yet. -/
  missing : ∀ (i : Nat) (x : ExecutorCall) (c : Category), a.calls[i]? = some x →
    x.phase = .making c → a.registry.find? c = none
  fits : ∀ x ∈ a.calls, x.Fits a.made

theorem fresh_inOrder (plan : ManagerPlan) : (fresh plan).InOrder where
  sound := ⟨rfl, List.nodup_nil⟩
  holder := by
    intro i x hx
    cases hx
  present := by
    intro i hi
    cases hi
  missing := by
    intro i x c hx
    cases hx
  fits := by
    intro x hx
    cases hx

section
variable {a a' : ExecutorSystem} {h : Happening} {i : Nat} {x : ExecutorCall} {phase : Retrieval}
  {b : ExecutorCache}

theorem put_call (hx : a.calls[i]? = some x) (y : ExecutorCall) (j : Nat) :
    (a.calls.set i y)[j]? = if i = j then some y else a.calls[j]? := by
  rw [List.getElem?_set, if_pos (List.getElem?_eq_some_iff.mp hx).1]

/-- A turn of one call. The registry stays as it is unless the call holds the lock, and nobody else
gets the lock or loses it. -/
theorem InOrder.turned (ha : a.InOrder) (hx : a.calls[i]? = some x) (hsound : b.Sound)
    (hholds : phase.holds = true ↔ b.holder = some i)
    (hothers : ∀ j, j ≠ i → (a.holder = some j ↔ b.holder = some j))
    (hregistry : b.registry = a.registry ∨ a.holder = some i)
    (hmissing : ∀ c, phase = .making c → b.registry.find? c = none)
    (hmade : ∀ e ∈ a.made, e ∈ b.made) (hfits : ExecutorCall.Fits b.made { x with phase }) :
    ((a.file b).put i { x with phase }).InOrder where
  sound := hsound
  holder := by
    intro j y hy
    rw [show ((a.file b).put i { x with phase }).calls = a.calls.set i _ from rfl,
      put_call hx] at hy
    split at hy
    · next hij =>
      obtain rfl := Option.some.inj hy
      subst hij
      exact hholds
    · next hij => exact (ha.holder j y hy).trans (hothers j (Ne.symm hij))
  present := by
    intro j hj
    show j < (a.calls.set i _).length
    rw [List.length_set]
    by_cases hij : j = i
    · exact hij ▸ (List.getElem?_eq_some_iff.mp hx).1
    · exact ha.present j ((hothers j hij).mpr hj)
  missing := by
    intro j y c hy hc
    rw [show ((a.file b).put i { x with phase }).calls = a.calls.set i _ from rfl,
      put_call hx] at hy
    split at hy
    · obtain rfl := Option.some.inj hy
      exact hmissing c hc
    · next hij =>
      -- whoever is about to make an executor holds the lock, so no one else changes the registry
      rcases hregistry with hr | hi
      · exact (congrArg (·.find? c) hr).trans (ha.missing j y c hy hc)
      · have hj := (ha.holder j y hy).mp (by rw [hc]; rfl)
        exact absurd (Option.some.inj (hi.symm.trans hj)) hij
  fits := by
    intro y hy
    rcases List.mem_or_eq_of_mem_set hy with hy | rfl
    · exact (ha.fits y hy).mono hmade
    · exact hfits

/-- A turn that leaves the registry and its lock as they are. -/
theorem InOrder.goes_on (ha : a.InOrder) (hx : a.calls[i]? = some x)
    (hholds : phase.holds = x.phase.holds)
    (hmissing : ∀ c, phase = .making c → a.registry.find? c = none)
    (hfits : ExecutorCall.Fits a.made { x with phase }) :
    ((a.file a.cache).put i { x with phase }).InOrder :=
  ha.turned hx ha.sound (hholds ▸ ha.holder i x hx) (fun _ _ => Iff.rfl) (.inl rfl) hmissing
    (fun _ => id) hfits

theorem InOrder.turn (ha : a.InOrder) (hx : a.calls[i]? = some x)
    (t : Retrieval.Turn x.name i a.cache x.phase phase b) :
    ((a.file b).put i { x with phase }).InOrder := by
  have hfits := ha.fits x (List.mem_of_getElem? hx)
  have hholder := ha.holder i x hx
  -- who has found an executor in the registry has found one that was made
  have found : ∀ {c e}, x.name.Means c → a.registry.find? c = some e →
      x.name.Means e.category ∧ e ∈ a.made := by
    intro c e hc he
    obtain ⟨rfl, hmem⟩ := Registry.find?_eq_some he
    have hstored : a.made = a.registry.executors := ha.sound.stored
    exact ⟨hc, hstored ▸ hmem⟩
  obtain ⟨name, before⟩ := x
  cases t with
  | named h => exact ha.goes_on hx rfl (by simp) (CategoryName.means_iff.mpr h)
  | misnamed h => exact ha.goes_on hx rfl (by simp) h
  | found h => exact ha.goes_on hx rfl (by simp) (found hfits h)
  | missed h => exact ha.goes_on hx rfl (by simp) hfits
  | locked h =>
    refine ha.turned hx ?_ ?_ ?_ (.inl rfl) (by simp) (fun _ => id) hfits
    · exact ⟨ha.sound.stored, ha.sound.once⟩
    · simp [Retrieval.holds]
    · intro j hj
      have hnone : a.holder = none := h
      simp [hnone, hj.symm]
  | foundAgain h => exact ha.goes_on hx rfl (by simp) (found hfits h)
  | missedAgain h =>
    refine ha.goes_on hx rfl (fun d hd => ?_) hfits
    obtain rfl := Retrieval.making.inj hd
    exact h
  | @made c =>
    refine ha.turned hx (ha.sound.make (ha.missing i _ c hx rfl)) hholder (fun _ _ => Iff.rfl)
      (.inr (hholder.mp rfl)) (by simp) ?_ ?_
    · exact fun e he => List.mem_append_left _ he
    · exact ⟨hfits, List.mem_append_right _ (List.mem_singleton_self _)⟩
  | left =>
    have hmine : a.holder = some i := hholder.mp rfl
    refine ha.turned hx ⟨ha.sound.stored, ha.sound.once⟩ ?_ ?_ (.inl rfl) (by simp) (fun _ => id)
      hfits
    · simp [Retrieval.holds]
    · intro j hj
      simp [hmine, hj.symm]

end

variable {a a' : ExecutorSystem} {h : Happening}

/-- Some call has returned the executor of a category that someone has got. -/
theorem hasGiven_iff {c : Category} : a.hasGiven c = true ↔
    ∃ x ∈ a.calls, ∃ e, x.phase = .ended (.ok e) ∧ e.category = c := by
  rw [hasGiven, List.any_eq_true]
  refine exists_congr fun x => and_congr_right fun _ => ?_
  split
  · next e he => simp [he]
  · next hne =>
    refine ⟨fun h => absurd h Bool.false_ne_true, ?_⟩
    rintro ⟨e, he, -⟩
    exact absurd he (hne e)

/-- Nothing that happens to the manager beside the calls for executors changes the registry. A
command would make the executor that it is called on, but whoever calls it has got it before. -/
theorem InOrder.system_registry (ha : a.InOrder) {h : ManagerSystem.Happening} {o : ManagerSystem}
    (hp : a.permits h = true) (st : ManagerSystem.Step a.system h o) :
    o.manager.registry = a.registry := by
  rcases st.registry with hr | ⟨v, x, order, rfl, hv, hs, hr⟩
  · exact hr
  · simp only [permits, hv, hs] at hp
    obtain ⟨y, hy, e, he, hc⟩ := hasGiven_iff.mp hp
    have hfits := ha.fits y hy
    rw [ExecutorCall.Fits, he] at hfits
    rw [hr, ← hc]
    exact Registry.obtain_known (ha.sound.known hfits.2)

/-- Who asks is the last one to have done so, and has come no further than to ask. -/
theorem asked_call {name : CategoryName} {i : Nat} {x : ExecutorCall}
    (hx : (a.ask name).calls[i]? = some x) :
    a.calls[i]? = some x ∨ i = a.calls.length ∧ x = { name } := by
  rw [ask] at hx
  rcases Nat.lt_or_ge i a.calls.length with hi | hi
  · rw [List.getElem?_append_left hi] at hx
    exact .inl hx
  · rw [List.getElem?_append_right hi, List.getElem?_singleton] at hx
    split at hx
    · next h0 => exact .inr ⟨by omega, (Option.some.inj hx).symm⟩
    · cases hx

theorem InOrder.asked (ha : a.InOrder) (name : CategoryName) : (a.ask name).InOrder where
  sound := ha.sound
  holder := by
    intro i x hx
    rcases asked_call hx with hx | ⟨rfl, rfl⟩
    · exact ha.holder i x hx
    · refine ⟨fun h => absurd h Bool.false_ne_true, fun h => ?_⟩
      exact absurd (ha.present _ h) (Nat.lt_irrefl _)
  present := by
    intro i hi
    exact Nat.lt_of_lt_of_le (ha.present i hi) (by simp [ask])
  missing := by
    intro i x c hx hc
    rcases asked_call hx with hx | ⟨rfl, rfl⟩
    · exact ha.missing i x c hx hc
    · cases hc
  fits := by
    intro x hx
    rcases List.mem_append.mp hx with hx | hx
    · exact ha.fits x hx
    · obtain rfl := List.mem_singleton.mp hx
      exact trivial

/-- What happens to the manager beside the calls for executors leaves them in order. -/
theorem InOrder.beside (ha : a.InOrder) {o : ManagerSystem} (hr : o.manager.registry = a.registry) :
    InOrder { a with system := o } where
  sound := by
    have hb : ({ a with system := o } : ExecutorSystem).cache = a.cache := by
      rw [cache, cache, registry, hr]
    exact hb ▸ ha.sound
  holder := ha.holder
  present := ha.present
  missing := by
    intro i x c hx hc
    exact (congrArg (·.find? c) hr).trans (ha.missing i x c hx hc)
  fits := ha.fits

theorem Step.inOrder (st : Step a h a') (ha : a.InOrder) : a'.InOrder := by
  cases st with
  | ask => exact ha.asked _
  | turn hx ht => exact ha.turn hx (Retrieval.turn_of_turn? ht)
  | system hp st => exact ha.beside (ha.system_registry hp st)

/-- What every step keeps holds to the end of a run. -/
@[elab_as_elim]
theorem Leads.keeps {kept : ExecutorSystem → Prop} (hl : Leads a a') (ha : kept a)
    (hs : ∀ {a h a'}, Step a h a' → kept a → kept a') : kept a' := by
  induction hl with
  | refl => exact ha
  | step _ st ih => exact hs st ih

theorem Leads.inOrder (hl : Leads a a') (ha : a.InOrder) : a'.InOrder :=
  hl.keeps ha Step.inOrder

theorem Reachable.inOrder {plan : ManagerPlan} (hr : Reachable plan a) : a.InOrder :=
  Leads.inOrder hr (fresh_inOrder plan)

theorem Step.made (st : Step a h a') {e : Executor} (he : e ∈ a.made) : e ∈ a'.made := by
  cases st with
  | ask | system => exact he
  | turn hx ht =>
    have ht := Retrieval.turn_of_turn? ht
    generalize ExecutorCall.phase _ = before at ht
    cases ht with
    | made => exact List.mem_append_left _ he
    | _ => exact he

theorem Leads.made (hl : Leads a a') {e : Executor} (he : e ∈ a.made) : e ∈ a'.made :=
  hl.keeps he fun st he => st.made he

/-- An executor was returned to whoever named its category, and the manager has made it. -/
theorem InOrder.answered (ha : a.InOrder) {x : ExecutorCall} (hx : x ∈ a.calls) {e : Executor}
    (he : x.phase = .ended (.ok e)) : x.name.Means e.category ∧ e ∈ a.made := by
  have hfits := ha.fits x hx
  rwa [ExecutorCall.Fits, he] at hfits

/-- A call that names no category goes no further than to find that out. -/
theorem InOrder.refused (ha : a.InOrder) {x : ExecutorCall} (hx : x ∈ a.calls)
    (hn : ∀ c, ¬ x.name.Means c) :
    x.phase = .naming ∨ x.phase = .ended (.error (.unknownCategory x.name.toValue)) := by
  have hfits := ha.fits x hx
  obtain ⟨name, phase⟩ := x
  cases phase with
  | naming => exact .inl rfl
  | looking c | waiting c | lookingAgain c | making c => exact absurd hfits (hn c)
  | leaving e => exact absurd hfits.1 (hn _)
  | ended r =>
    cases r with
    | ok e => exact absurd hfits.1 (hn _)
    | error f =>
      have hf := Except.error.inj (hfits.symm.trans (CategoryName.category_of_meaningless hn))
      exact .inr (congrArg (fun f => Retrieval.ended (.error f)) hf)

/-- Its one turn changes nothing but the call itself. -/
theorem InOrder.refusal (ha : a.InOrder) {i : Nat} {x : ExecutorCall} (hx : a.calls[i]? = some x)
    (hn : ∀ c, ¬ x.name.Means c) (st : Step a (.turn i) a') :
    a' = a.put i { x with phase := .ended (.error (.unknownCategory x.name.toValue)) } := by
  cases st with
  | turn hy ht =>
    obtain rfl := Option.some.inj (hx.symm.trans hy)
    rcases ha.refused (List.mem_of_getElem? hx) hn with hp | hp
    · rw [hp, Retrieval.turn?, CategoryName.category_of_meaningless hn] at ht
      cases ht
      rfl
    · rw [hp] at ht
      cases ht

/-- Unless all calls have ended, one of them has its turn: who waits for the lock waits for a call
that goes on. -/
theorem InOrder.going (ha : a.InOrder) :
    (∀ x ∈ a.calls, ∃ r, x.phase = .ended r) ∨ ∃ i a', Step a (.turn i) a' := by
  have goes : ∀ {i : Nat} {x : ExecutorCall}, a.calls[i]? = some x → (∀ r, x.phase ≠ .ended r) →
      ((∃ c, x.phase = .waiting c) → a.cache.holder = none) → ∃ i a', Step a (.turn i) a' := by
    intro i x hx hrest hfree
    obtain ⟨phase, b, ht⟩ := Retrieval.has_turn hrest x.name i hfree
    exact ⟨i, _, .turn hx ht⟩
  by_cases hall : ∀ x ∈ a.calls, ∃ r, x.phase = .ended r
  · exact .inl hall
  · refine .inr ?_
    cases hholder : a.holder with
    | none =>
      push Not at hall
      obtain ⟨x, hx, hrest⟩ := hall
      obtain ⟨i, hi⟩ := List.mem_iff_getElem?.mp hx
      exact goes hi hrest fun _ => hholder
    | some i =>
      have hi := List.getElem?_eq_getElem (ha.present i hholder)
      have hholds := (ha.holder i _ hi).mpr hholder
      refine goes hi (fun r hr => ?_) ?_
      · rw [hr] at hholds
        cases hholds
      · rintro ⟨c, hc⟩
        rw [hc] at hholds
        cases hholds

/-! ## One executor for each category -/

/-- What calls for executors come to, however they are mixed with one another and with whatever else
happens at the manager. -/
structure OnePerCategory (a : ExecutorSystem) : Prop where
  /-- A call that returns was given a category, itself or by its name, and returns an executor of
  this category that the manager has made. -/
  answered : ∀ x ∈ a.calls, ∀ e, x.phase = .ended (.ok e) → x.name.Means e.category ∧ e ∈ a.made
  /-- Two calls return the same executor if they mean the same category, and only then, however much
  later one of them is. -/
  same : ∀ a', Leads a a' → ∀ x ∈ a.calls, ∀ y ∈ a'.calls, ∀ e e', x.phase = .ended (.ok e) →
    y.phase = .ended (.ok e') → ∀ c d, x.name.Means c → y.name.Means d → (e = e' ↔ c = d)
  once : ∀ c, a.made.countP (·.category = c) ≤ 1
  /-- What was made is what the registry has from then on. -/
  lasting : ∀ a', Leads a a' → ∀ e ∈ a.made, a'.registry.find? e.category = some e
  /-- A call that names no category ends in the fault that says so, and changes nothing else. -/
  refused : ∀ i x, a.calls[i]? = some x → (∀ c, ¬ x.name.Means c) →
    (x.phase = .naming ∨ x.phase = .ended (.error (.unknownCategory x.name.toValue))) ∧
    ∀ a', Step a (.turn i) a' →
      a' = a.put i { x with phase := .ended (.error (.unknownCategory x.name.toValue)) }
  /-- No other call fails. -/
  failed : ∀ x ∈ a.calls, ∀ f, x.phase = .ended (.error f) → ∀ c, ¬ x.name.Means c
  /-- The calls do not block one another for good. -/
  going : (∀ x ∈ a.calls, ∃ r, x.phase = .ended r) ∨ ∃ i a', Step a (.turn i) a'
  /-- While nobody holds the lock, a call that is alone comes to what the registry gives for the
  value. -/
  alone : a.holder = none → ∀ name i, Retrieval.run name i 6 .naming a.cache =
    match a.registry.ofValue name.toValue with
    | .ok (e, r) => (.ended (.ok e), { a.cache with registry := r, made := r.executors })
    | .error f => (.ended (.error f), a.cache)

/-- There is one executor for each category as long as the manager lives. -/
theorem one_executor_per_category {plan : ManagerPlan} (hr : Reachable plan a) :
    a.OnePerCategory := by
  have ha := hr.inOrder
  refine ⟨?_, ?_, ?_, ?_, ?_, ?_, ha.going, ?_⟩
  · exact fun x hx e he => ha.answered hx he
  · intro a' hl x hx y hy e e' he he' c d hc hd
    have ha' := hl.inOrder ha
    obtain ⟨hm, hmade⟩ := ha.answered hx he
    obtain ⟨hm', hmade'⟩ := ha'.answered hy he'
    obtain rfl := CategoryName.means_unique hm hc
    obtain rfl := CategoryName.means_unique hm' hd
    exact ⟨congrArg _, ha'.sound.eq (hl.made hmade) hmade'⟩
  · intro c
    have hcount := List.nodup_iff_count_le_one.mp ha.sound.once c
    rwa [List.count, List.countP_map] at hcount
  · exact fun a' hl e he => (hl.inOrder ha).sound.known (hl.made he)
  · exact fun i x hx hn => ⟨ha.refused (List.mem_of_getElem? hx) hn, fun a' => ha.refusal hx hn⟩
  · intro x hx f hf c hc
    have hfits := ha.fits x hx
    rw [ExecutorCall.Fits, hf] at hfits
    cases hfits.symm.trans (CategoryName.means_iff.mp hc)
  · exact fun hfree name i => Retrieval.run_alone name i hfree ha.sound.stored

/-! ## Steps that can be computed -/

/-- What a happening makes of a manager and its calls, if it can happen there. -/
def after? (a : ExecutorSystem) : Happening → Option ExecutorSystem
  | .ask name => some (a.ask name)
  | .turn i => (a.calls[i]?).bind fun x => (x.phase.turn? x.name i a.cache).map fun t =>
      (a.file t.2).put i { x with phase := t.1 }
  | .system h =>
    if a.permits h then (a.system.after? h).map fun system => { a with system } else none

theorem step_of_after (ha : a.after? h = some a') : Step a h a' := by
  cases h with
  | ask name =>
    cases ha
    exact .ask
  | turn i =>
    obtain ⟨x, hx, ha⟩ := Option.bind_eq_some_iff.mp ha
    obtain ⟨⟨phase, b⟩, ht, rfl⟩ := Option.map_eq_some_iff.mp ha
    exact .turn hx ht
  | system h =>
    simp only [after?] at ha
    split at ha
    · next hp =>
      obtain ⟨o, ho, rfl⟩ := Option.map_eq_some_iff.mp ha
      exact .system hp (ManagerSystem.step_of_after ho)
    · cases ha

/-- Plays a script to its end. -/
def play (a : ExecutorSystem) (script : List Happening) : Option ExecutorSystem :=
  script.foldlM after? a

theorem leads_of_play {a₀ : ExecutorSystem} {script : List Happening} (hl : Leads a₀ a)
    (hp : a.play script = some a') : Leads a₀ a' := by
  induction script generalizing a with
  | nil =>
    cases hp
    exact hl
  | cons h rest ih =>
    rw [play, List.foldlM_cons] at hp
    obtain ⟨a₁, ha, hp⟩ := Option.bind_eq_some_iff.mp hp
    exact ih (.step hl (step_of_after ha)) hp

/-- How many calls have returned an executor. -/
def returned (a : ExecutorSystem) : Nat :=
  a.calls.countP fun x => match x.phase with
    | .ended (.ok _) => true
    | _ => false

/-- Two calls miss the executor for texts at the same time, one by the category and one by its name,
while a third names no category. One of them makes the executor, before the manager is initialized
and closed, and the other one finds it at its second look. -/
theorem one_executor_per_category_of_race : ∃ a, Reachable {} a ∧ a.returned = 2 ∧
    a.made.length = 1 ∧ a.OnePerCategory := by
  have hp : ((fresh {}).play
      [.ask (.member .string), .ask (.value (.text "string")), .ask (.value (.text "geo")),
        .turn 0, .turn 1, .turn 2, .turn 0, .turn 1, .turn 1, .turn 1, .turn 1,
        .system (.arrive (.init "h:1" (.text "") .absent)), .system (.establish 0 {}),
        .turn 1, .turn 0, .turn 0, .system (.arrive .close), .system (.look 1), .turn 0]).any
      (fun a => decide (a.returned = 2) && decide (a.made.length = 1)) = true := by
    decide +kernel
  obtain ⟨a, ha, hp⟩ := (Option.any_eq_true _ _).mp hp
  obtain ⟨hr, hm⟩ := Bool.and_eq_true_iff.mp hp
  have hreach : Reachable {} a := leads_of_play .refl ha
  exact ⟨a, hreach, of_decide_eq_true hr, of_decide_eq_true hm, one_executor_per_category hreach⟩

end ExecutorSystem
end RedisGateway
