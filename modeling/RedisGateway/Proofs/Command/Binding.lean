import Mathlib.Data.List.Basic
import RedisGateway.Command.Table

/-!
What the arguments of a call amount to. Every parameter has one value, in the order in which the
parameters are declared; a call is accepted if it gives each value once, and what the client is sent
then are these values and the further arguments.
-/

namespace RedisGateway

namespace Command

variable {c : Command} {args : List Value} {named : Fields}

/-- The value of a parameter that no argument by position reaches: the one given under its name, or
else its fallback. -/
def valueOf (named : Fields) (p : Parameter) : Option Value := (named.lookup p.name).or p.fallback

/-- The arguments of a call fit a command: no name is unknown, nothing is left over, no parameter is
given twice, and none has no value. -/
structure Accepts (c : Command) (args : List Value) (named : Fields) : Prop where
  known : ∀ n ∈ named, ∃ p ∈ c.parameters, p.name = n.1
  fits : c.variadic = true ∨ args.length ≤ c.parameters.length
  once : ∀ p ∈ c.parameters.take args.length, named.lookup p.name = none
  filled : ∀ p ∈ c.parameters.drop args.length, (valueOf named p).isSome = true

/-- The parameters with their values: those given by position, then the others. -/
def assigned (ps : List Parameter) (args : List Value) (named : Fields) :
    List (Parameter × Value) :=
  ps.zip args ++ (ps.drop args.length).filterMap fun p => (valueOf named p).map (p, ·)

/-- What a client is sent for the arguments of a call: the values of the parameters in the order of
their declaration, some of them under their names, and after them the further arguments. -/
def forwarded (c : Command) (args : List Value) (named : Fields) : Call where
  command := c.name
  arguments := ((assigned c.parameters args named).filter fun a => !a.1.named).map (·.2) ++
    args.drop c.parameters.length
  keywords := ((assigned c.parameters args named).filter fun a => a.1.named).map
    fun a => (a.1.name, a.2)

/-- Every parameter is bound once, in the order of the declaration. -/
theorem assigned_parameters {ps : List Parameter}
    (h : ∀ p ∈ ps.drop args.length, (valueOf named p).isSome = true) :
    (assigned ps args named).map (·.1) = ps := by
  induction ps generalizing args with
  | nil => simp [assigned]
  | cons p ps ih =>
    cases args with
    | cons a args => exact congrArg (p :: ·) (ih h)
    | nil =>
      obtain ⟨hp, hps⟩ := List.forall_mem_cons.mp h
      obtain ⟨v, hv⟩ := Option.isSome_iff_exists.mp hp
      have ih : ((ps.filterMap fun p => (valueOf named p).map (p, ·)).map (·.1)) = ps := by
        simpa [assigned] using @ih [] hps
      simp [assigned, hv, ih]

theorem bindParameters_iff {ps : List Parameter} {bound : List (Parameter × Value)} :
    bindParameters ps args named = some bound ↔
      (∀ p ∈ ps.take args.length, named.lookup p.name = none) ∧
      (∀ p ∈ ps.drop args.length, (valueOf named p).isSome = true) ∧
      bound = assigned ps args named := by
  induction ps generalizing args bound with
  | nil =>
    simp only [bindParameters, assigned, List.take_nil, List.drop_nil, List.not_mem_nil,
      false_implies, implies_true, true_and, List.zip_nil_left, List.filterMap_nil,
      List.append_nil, Option.some.injEq]
    exact eq_comm
  | cons p ps ih =>
    cases args with
    | cons a args =>
      have hz : assigned (p :: ps) (a :: args) named = (p, a) :: assigned ps args named := rfl
      simp only [bindParameters, List.length_cons, List.take_succ_cons, List.drop_succ_cons,
        List.forall_mem_cons, hz]
      cases hl : named.lookup p.name with
      | some v => simp
      | none =>
        simp only [Option.isSome_none, Bool.false_eq_true, if_false, Option.map_eq_some_iff, ih,
          true_and]
        constructor
        · rintro ⟨rest, ⟨h1, h2, rfl⟩, rfl⟩
          exact ⟨h1, h2, rfl⟩
        · rintro ⟨h1, h2, rfl⟩
          exact ⟨_, ⟨h1, h2, rfl⟩, rfl⟩
    | nil =>
      have hb : bindParameters (p :: ps) [] named = (valueOf named p).bind fun v =>
        (bindParameters ps [] named).bind fun rest => some ((p, v) :: rest) := rfl
      rw [hb]
      cases hv : valueOf named p with
      | none => simp [hv]
      | some v =>
        have ha : assigned (p :: ps) [] named = (p, v) :: assigned ps [] named := by
          simp [assigned, hv]
        simp only [Option.bind_some, Option.bind_eq_some_iff, ih, ha, List.length_nil,
          List.take_zero, List.drop_zero, List.forall_mem_cons, hv, Option.isSome_some, true_and,
          Option.some.injEq]
        constructor
        · rintro ⟨rest, ⟨h1, h2, rfl⟩, rfl⟩
          exact ⟨h1, h2, rfl⟩
        · rintro ⟨h1, h2, rfl⟩
          exact ⟨_, ⟨h1, h2, rfl⟩, rfl⟩

/-- A call is bound exactly if its arguments fit, and to what they amount to. -/
theorem bind_ok_iff {call : Call} :
    c.bind args named = .ok call ↔ c.Accepts args named ∧ call = c.forwarded args named := by
  have hn : (named.all fun p => c.parameters.any fun q => q.name = p.1) = true ↔
      ∀ n ∈ named, ∃ p ∈ c.parameters, p.name = n.1 := by
    simp [List.all_eq_true, List.any_eq_true]
  have hf : (!c.variadic && !(args.drop c.parameters.length).isEmpty) = false ↔
      (c.variadic = true ∨ args.length ≤ c.parameters.length) := by
    cases c.variadic <;> simp [List.isEmpty_iff]
  unfold bind
  dsimp only
  by_cases h : (!(named.all fun p => c.parameters.any fun q => q.name = p.1) ||
      (!c.variadic && !(args.drop c.parameters.length).isEmpty)) = true
  · rw [if_pos h]
    refine ⟨nofun, fun ⟨ha, _⟩ => ?_⟩
    rw [hn.mpr ha.known, hf.mpr ha.fits] at h
    cases h
  · rw [if_neg h]
    rw [Bool.not_eq_true, Bool.or_eq_false_iff, Bool.not_eq_false'] at h
    obtain ⟨hk, hl⟩ := h
    cases hb : bindParameters c.parameters args named with
    | none =>
      refine ⟨nofun, fun ⟨ha, _⟩ => ?_⟩
      rw [bindParameters_iff.mpr ⟨ha.once, ha.filled, rfl⟩] at hb
      cases hb
    | some bound =>
      obtain ⟨h1, h2, rfl⟩ := bindParameters_iff.mp hb
      constructor
      · intro h
        cases h
        exact ⟨⟨hn.mp hk, hf.mp hl, h1, h2⟩, rfl⟩
      · rintro ⟨-, rfl⟩
        rfl

theorem zip_values (ps : List Parameter) (args : List Value) :
    (ps.zip args).map (·.2) = args.take ps.length := by
  induction ps generalizing args with
  | nil => simp
  | cons p ps ih =>
    cases args with
    | nil => rfl
    | cons a args => exact congrArg (a :: ·) (ih args)

theorem assigned_values (ps : List Parameter) (args : List Value) (named : Fields) :
    (assigned ps args named).map (·.2) =
      args.take ps.length ++ (ps.drop args.length).filterMap (valueOf named) := by
  rw [assigned, List.map_append, zip_values, List.map_filterMap]
  refine congrArg (args.take ps.length ++ ·) (List.filterMap_congr fun p _ => ?_)
  cases valueOf named p <;> rfl

/-- What is sent are the given arguments and the values of the parameters that they do not reach,
each of them once. -/
theorem forwarded_perm (c : Command) (args : List Value) (named : Fields) :
    ((c.forwarded args named).arguments ++ (c.forwarded args named).keywords.map (·.2)).Perm
      (args ++ (c.parameters.drop args.length).filterMap (valueOf named)) := by
  generalize hb : assigned c.parameters args named = bound
  generalize hm : args.drop c.parameters.length = more
  have hv : bound.map (·.2) = args.take c.parameters.length ++
      (c.parameters.drop args.length).filterMap (valueOf named) := hb ▸ assigned_values ..
  have hk : (c.forwarded args named).keywords.map (·.2) =
      (bound.filter fun a => a.1.named).map (·.2) := by
    simp [forwarded, hb]
  have ha : (c.forwarded args named).arguments =
      (bound.filter fun a => !a.1.named).map (·.2) ++ more := by
    simp [forwarded, hb, hm]
  rw [hk, ha]
  calc ((bound.filter fun a => !a.1.named).map (·.2) ++ more) ++
        (bound.filter fun a => a.1.named).map (·.2)
    _ = (bound.filter fun a => !a.1.named).map (·.2) ++
        (more ++ (bound.filter fun a => a.1.named).map (·.2)) := List.append_assoc ..
    List.Perm _ ((bound.filter fun a => !a.1.named).map (·.2) ++
        ((bound.filter fun a => a.1.named).map (·.2) ++ more)) :=
      List.perm_append_comm.append_left _
    _ = ((bound.filter fun a => !a.1.named) ++ bound.filter fun a => a.1.named).map (·.2) ++
        more := by rw [List.map_append, List.append_assoc]
    List.Perm _ (bound.map (·.2) ++ more) :=
      ((List.perm_append_comm.trans (List.filter_append_perm _ bound)).map _).append_right _
    _ = args.take c.parameters.length ++
        ((c.parameters.drop args.length).filterMap (valueOf named) ++ more) := by
      rw [hv, List.append_assoc]
    List.Perm _ (args.take c.parameters.length ++
        (more ++ (c.parameters.drop args.length).filterMap (valueOf named))) :=
      List.perm_append_comm.append_left _
    _ = args ++ (c.parameters.drop args.length).filterMap (valueOf named) := by
      rw [← List.append_assoc, ← hm, List.take_append_drop]

/-! ## The table -/

theorem find?_of_nodup {cs : List Command} (hn : (cs.map (·.name)).Nodup) {c : Command}
    (hc : c ∈ cs) : cs.find? (·.name = c.name) = some c := by
  induction cs with
  | nil => cases hc
  | cons d cs ih =>
    obtain ⟨hd, hn⟩ := List.nodup_cons.mp hn
    rcases List.mem_cons.mp hc with rfl | hc
    · simp
    · have hne : d.name ≠ c.name := fun h => hd (List.mem_map.mpr ⟨c, hc, h.symm⟩)
      rw [List.find?_cons_of_neg (by simpa using hne)]
      exact ih hn hc

/-- No category has two commands of one name. -/
theorem names_nodup (category : Category) : ((ofCategory category).map (·.name)).Nodup := by
  cases category <;> decide

/-- No command is the one that closes a client. -/
theorem name_ne_closing {category : Category} (hc : c ∈ ofCategory category) :
    c.name ≠ Remote.closingCommand := by
  have h : ∀ n ∈ (ofCategory category).map (·.name), n ≠ Remote.closingCommand := by
    cases category <;> decide
  exact h c.name (List.mem_map_of_mem hc)

end Command

/-- An executor has the commands of its category under their names. -/
theorem ExecutorMember.find?_command {category : Category} {c : Command}
    (hc : c ∈ Command.ofCategory category) : find? category c.name = some (.command c) := by
  unfold find? Command.find?
  rw [Command.find?_of_nodup (Command.names_nodup category) hc]

end RedisGateway
