import RedisGateway.Command.Registry

/-!
The call for an executor, taken apart where other callers can come in between. It looks into the
registry without the lock first; if the executor is not there it takes the lock, looks again, and
only then makes the executor and stores it. Alone with the registry a call comes to what
`Registry.ofValue` comes to.
-/

namespace RedisGateway

/-- How a caller names a category: by the category itself, or by a value. -/
inductive CategoryName where
  | member (c : Category)
  | value (v : Value)

namespace CategoryName

/-- The name as a value. A category is a text as well, the one that names it. -/
def toValue : CategoryName → Value
  | .member c => .text c.name
  | .value v => v

/-- The category that is meant. -/
def category? : CategoryName → Except Fault Category
  | .member c => .ok c
  | .value v => match Category.ofValue? v with
    | some c => .ok c
    | none => .error (.unknownCategory v)

/-- A name that means a category. -/
inductive Means : CategoryName → Category → Prop where
  | member {c} : Means (.member c) c
  | value {c : Category} : Means (.value (.text c.name)) c

/-- Each category is known by its name. -/
theorem ofValue_name (c : Category) : Category.ofValue? (.text c.name) = some c := by
  cases c <;> decide

/-- Nothing else names a category. -/
theorem eq_name_of_ofValue {v : Value} {c : Category} (h : Category.ofValue? v = some c) :
    v = .text c.name := by
  have ht : v.isText c.name = true := by
    rw [Category.ofValue?] at h
    have hfound := List.find?_some h
    exact hfound
  cases v with
  | text s => rw [Option.some.inj (beq_iff_eq.mp ht)]
  | _ => cases ht

theorem means_iff {name : CategoryName} {c : Category} :
    name.Means c ↔ name.category? = .ok c := by
  constructor
  · intro h
    cases h with
    | member => rfl
    | value => rw [category?, ofValue_name]
  · intro h
    cases name with
    | member c' =>
      obtain rfl := Except.ok.inj h
      exact .member
    | value v =>
      rw [category?] at h
      split at h
      · next hc =>
        obtain rfl := Except.ok.inj h
        rw [eq_name_of_ofValue hc]
        exact .value
      · cases h

theorem category_of_ok {name : CategoryName} {c : Category} (h : name.category? = .ok c) :
    Category.ofValue? name.toValue = some c := by
  cases name with
  | member c' =>
    obtain rfl := Except.ok.inj h
    exact ofValue_name c'
  | value v =>
    rw [category?] at h
    split at h
    · next hc => rw [toValue, hc, Except.ok.inj h]
    · cases h

theorem means_unique {name : CategoryName} {c d : Category} (hc : name.Means c)
    (hd : name.Means d) : c = d :=
  Except.ok.inj ((means_iff.mp hc).symm.trans (means_iff.mp hd))

/-- A name that means no category is at fault itself. -/
theorem category_of_meaningless {name : CategoryName} (h : ∀ c, ¬ name.Means c) :
    name.category? = .error (.unknownCategory name.toValue) := by
  cases name with
  | member c => exact absurd .member (h c)
  | value v =>
    rw [category?, toValue]
    split
    · next c hc =>
      refine absurd ?_ (h c)
      rw [eq_name_of_ofValue hc]
      exact .value
    · rfl

theorem unknown_of_error {name : CategoryName} {f : Fault} (h : name.category? = .error f) :
    Category.ofValue? name.toValue = none ∧ f = .unknownCategory name.toValue := by
  cases name with
  | member c => cases h
  | value v =>
    rw [category?] at h
    split at h
    · cases h
    · next hc => exact ⟨hc, (Except.error.inj h).symm⟩

end CategoryName

namespace Registry

/-- An executor takes the place of the one of its category, or is added. -/
def store (r : Registry) (e : Executor) : Registry :=
  ⟨r.executors.filter (·.category ≠ e.category) ++ [e]⟩

theorem find?_eq_some {r : Registry} {c : Category} {e : Executor} (h : r.find? c = some e) :
    e.category = c ∧ e ∈ r.executors := by
  rw [find?] at h
  have hc := List.find?_some h
  exact ⟨of_decide_eq_true hc, List.mem_of_find?_eq_some h⟩

theorem find?_eq_none {r : Registry} {c : Category} :
    r.find? c = none ↔ ∀ e ∈ r.executors, e.category ≠ c := by
  simp [find?]

/-- Nothing is replaced by the first executor of a category. -/
theorem store_first {r : Registry} {e : Executor} (h : r.find? e.category = none) :
    r.store e = ⟨r.executors ++ [e]⟩ := by
  rw [store, List.filter_eq_self.mpr]
  intro e' he'
  exact decide_eq_true (find?_eq_none.mp h e' he')

end Registry

/-- The registry of executors with its lock. -/
structure ExecutorCache where
  registry : Registry := {}
  /-- The call that holds the lock. -/
  holder : Option Nat := none
  /-- Every executor that was made, in order. -/
  made : List Executor := []

namespace ExecutorCache

/-- The executor that is made next. -/
def next (b : ExecutorCache) (c : Category) : Executor := ⟨c, b.made.length⟩

/-- An executor is made and stored. -/
def make (b : ExecutorCache) (c : Category) : ExecutorCache :=
  { b with registry := b.registry.store (b.next c), made := b.made ++ [b.next c] }

end ExecutorCache

/-- How far a call for an executor has come. -/
inductive Retrieval where
  /-- About to find out which category is meant. -/
  | naming
  /-- About to look into the registry without the lock. -/
  | looking (c : Category)
  /-- About to take the lock. -/
  | waiting (c : Category)
  /-- Holding the lock, and about to look again. -/
  | lookingAgain (c : Category)
  /-- Holding the lock, and about to make the executor and store it. -/
  | making (c : Category)
  /-- Holding the lock, and about to leave it. -/
  | leaving (e : Executor)
  | ended (r : Except Fault Executor)

namespace Retrieval

/-- Whether a call holds the lock. -/
def holds : Retrieval → Bool
  | lookingAgain _ | making _ | leaving _ => true
  | _ => false

/-- What becomes of a call and of the registry in one turn. A call that waits for the lock has none
while another call holds it, and neither has a call that has ended. -/
def turn? (name : CategoryName) (i : Nat) (b : ExecutorCache) :
    Retrieval → Option (Retrieval × ExecutorCache)
  | naming => match name.category? with
    | .ok c => some (looking c, b)
    | .error f => some (ended (.error f), b)
  | looking c => match b.registry.find? c with
    | some e => some (ended (.ok e), b)
    | none => some (waiting c, b)
  | waiting c =>
    if b.holder = none then some (lookingAgain c, { b with holder := some i }) else none
  | lookingAgain c => match b.registry.find? c with
    | some e => some (leaving e, b)
    | none => some (making c, b)
  | making c => some (leaving (b.next c), b.make c)
  | leaving e => some (ended (.ok e), { b with holder := none })
  | ended _ => none

/-- All that a turn can be. -/
inductive Turn (name : CategoryName) (i : Nat) (b : ExecutorCache) :
    Retrieval → Retrieval → ExecutorCache → Prop where
  | named {c} (h : name.category? = .ok c) : Turn name i b naming (looking c) b
  | misnamed {f} (h : name.category? = .error f) : Turn name i b naming (ended (.error f)) b
  | found {c e} (h : b.registry.find? c = some e) : Turn name i b (looking c) (ended (.ok e)) b
  | missed {c} (h : b.registry.find? c = none) : Turn name i b (looking c) (waiting c) b
  | locked {c} (h : b.holder = none) :
      Turn name i b (waiting c) (lookingAgain c) { b with holder := some i }
  | foundAgain {c e} (h : b.registry.find? c = some e) :
      Turn name i b (lookingAgain c) (leaving e) b
  | missedAgain {c} (h : b.registry.find? c = none) : Turn name i b (lookingAgain c) (making c) b
  | made {c} : Turn name i b (making c) (leaving (b.next c)) (b.make c)
  | left {e} : Turn name i b (leaving e) (ended (.ok e)) { b with holder := none }

theorem turn_of_turn? {name : CategoryName} {i : Nat} {b b' : ExecutorCache} {x x' : Retrieval}
    (h : x.turn? name i b = some (x', b')) : Turn name i b x x' b' := by
  cases x with
  | naming =>
    rw [turn?] at h
    split at h <;> cases h
    · exact .named ‹_›
    · exact .misnamed ‹_›
  | looking c =>
    rw [turn?] at h
    split at h <;> cases h
    · exact .found ‹_›
    · exact .missed ‹_›
  | waiting c =>
    rw [turn?] at h
    split at h <;> cases h
    exact .locked ‹_›
  | lookingAgain c =>
    rw [turn?] at h
    split at h <;> cases h
    · exact .foundAgain ‹_›
    · exact .missedAgain ‹_›
  | making c =>
    cases h
    exact .made
  | leaving e =>
    cases h
    exact .left
  | ended r => cases h

/-- A call that is not over has its turn, unless another call holds the lock that it waits for. -/
theorem has_turn {x : Retrieval} (hx : ∀ r, x ≠ ended r) (name : CategoryName) (i : Nat)
    {b : ExecutorCache} (hb : (∃ c, x = waiting c) → b.holder = none) :
    ∃ x' b', x.turn? name i b = some (x', b') := by
  cases x with
  | naming =>
    rw [turn?]
    split <;> exact ⟨_, _, rfl⟩
  | looking c =>
    rw [turn?]
    split <;> exact ⟨_, _, rfl⟩
  | waiting c => exact ⟨_, _, if_pos (hb ⟨c, rfl⟩)⟩
  | lookingAgain c =>
    rw [turn?]
    split <;> exact ⟨_, _, rfl⟩
  | making c => exact ⟨_, _, rfl⟩
  | leaving e => exact ⟨_, _, rfl⟩
  | ended r => exact absurd rfl (hx r)

/-- Some turns of a call that is alone with the registry. -/
def run (name : CategoryName) (i : Nat) :
    Nat → Retrieval → ExecutorCache → Retrieval × ExecutorCache
  | 0, x, b => (x, b)
  | n + 1, x, b => match x.turn? name i b with
    | some (x, b) => run name i n x b
    | none => (x, b)

/-- Alone with the registry, a call comes to the executor that the registry has or makes for the
value that it is given. -/
theorem run_alone (name : CategoryName) (i : Nat) {b : ExecutorCache} (hfree : b.holder = none)
    (hmade : b.made = b.registry.executors) : run name i 6 naming b =
      match b.registry.ofValue name.toValue with
      | .ok (e, r) => (ended (.ok e), { b with registry := r, made := r.executors })
      | .error f => (ended (.error f), b) := by
  obtain ⟨registry, holder, made⟩ := b
  obtain rfl : made = registry.executors := hmade
  obtain rfl : holder = none := hfree
  cases hname : name.category? with
  | error f =>
    obtain ⟨hnone, rfl⟩ := CategoryName.unknown_of_error hname
    simp [run, turn?, hname, Registry.ofValue, hnone]
  | ok c =>
    have hc := CategoryName.category_of_ok hname
    -- nobody else has a turn, so the second look finds what the first one found
    cases hfind : registry.find? c with
    | some e => simp [run, turn?, hname, Registry.ofValue, hc, Registry.obtain, hfind]
    | none =>
      have hstore := @Registry.store_first registry ⟨c, registry.executors.length⟩ hfind
      simp [run, turn?, hname, Registry.ofValue, hc, Registry.obtain, hfind, ExecutorCache.make,
        ExecutorCache.next, hstore]

end Retrieval
end RedisGateway
