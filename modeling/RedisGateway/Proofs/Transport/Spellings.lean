import RedisGateway.Proofs.Transport.Given
import RedisGateway.Settings.Model

/-!
Options as a plain mapping and as a typed record. A mapping with values of the declared types is
always accepted as a record, and both forms make the same configuration of every endpoint, unless
the mapping sets the timeout under the one spelling that the record does not know.
-/

namespace RedisGateway

/-! ## Mappings with values of the declared types -/

namespace TransportOption

/-- A value of the type that an option is declared with. A timeout is a span of time. -/
def Admits : TransportOption → Value → Prop
  | .clientName, .text _ => True
  | .connectionTimeout, .whole n => (Duration.ofMilliseconds n).inRange = true
  | .database, .whole _ => True
  | .tls, .flag _ | .startTls, .flag _ | .verifyPeer, .flag _ => True
  | _, _ => False

/-- No name is a spelling of two options. -/
theorem eq_of_mem_spellings {o o' : TransportOption} {name : String} (h : name ∈ o.spellings)
    (h' : name ∈ o'.spellings) : o = o' := by
  cases o <;> cases o' <;> first | rfl | (simp only [spellings, List.mem_cons] at h h'; grind)

theorem Admits.text {v : Value} (h : Admits .clientName v) : ∃ s, v = .text s := by
  cases v <;> first | exact ⟨_, rfl⟩ | cases h

theorem Admits.timeout {v : Value} (h : Admits .connectionTimeout v) :
    ∃ n, v = .whole n ∧ (Duration.ofMilliseconds n).inRange = true := by
  cases v <;> first | exact ⟨_, rfl, h⟩ | cases h

theorem Admits.database {v : Value} (h : Admits .database v) : ∃ n, v = .whole n := by
  cases v <;> first | exact ⟨_, rfl⟩ | cases h

/-- An option that is a flag. -/
def IsFlag (o : TransportOption) : Prop := o = .tls ∨ o = .startTls ∨ o = .verifyPeer

theorem Admits.flag {o : TransportOption} (ho : o.IsFlag) {v : Value} (h : o.Admits v) :
    ∃ b, v = .flag b := by
  rcases ho with rfl | rfl | rfl <;> cases v <;> first | exact ⟨_, rfl⟩ | cases h

end TransportOption

namespace Fields

/-- A mapping of nothing but spellings of options, each with a value of the option's type. Several
spellings of one option may be present. -/
def Typed (fs : Fields) : Prop :=
  ∀ e ∈ fs, ∃ o : TransportOption, e.1 ∈ o.spellings ∧ o.Admits e.2

theorem Typed.get? {fs : Fields} (hf : fs.Typed) {o : TransportOption} {name : String}
    (hn : name ∈ o.spellings) {v : Value} (h : fs.get? name = some v) : o.Admits v := by
  obtain ⟨o', hn', ha⟩ := hf _ (mem_of_get? h)
  rw [TransportOption.eq_of_mem_spellings hn hn']
  exact ha

/-- What is found under one of an option's spellings is of its type. -/
theorem Typed.first? {fs : Fields} (hf : fs.Typed) {o : TransportOption} {names : List String}
    (hn : ∀ name ∈ names, name ∈ o.spellings) {v : Value} (h : fs.first? names = some v) :
    o.Admits v := by
  obtain ⟨name, hm, hv⟩ := List.exists_of_findSome?_eq_some h
  exact hf.get? (hn name hm) hv

theorem first?_pair (fs : Fields) (a b : String) :
    fs.first? [a, b] = (fs.get? a).or (fs.get? b) := by
  simp only [first?, List.findSome?_cons, List.findSome?_nil]
  cases fs.get? a <;> cases fs.get? b <;> rfl

end Fields

/-! ## Reading a record -/

namespace ConnectionOptions

open Settings (FieldRule)
open TransportOption (IsFlag)
open ConnectionSettings

variable {fs : Fields}

/-- A field is read under the first of its two names that is given. -/
theorem readField_ok {α : Type} (f : FieldRule α) (second : String) (x : Value → α)
    (h : ∀ v, fs.first? [second, f.name] = some v → f.read v = .ok (x v)) :
    readField f second fs = .ok (((fs.first? [second, f.name]).map x).getD f.fallback) := by
  rw [Fields.first?_pair] at h ⊢
  unfold readField FieldRule.readAs
  cases hs : fs.get? second with
  | some v =>
    rw [hs] at h
    dsimp only
    rw [h v rfl]
    rfl
  | none =>
    rw [hs] at h
    cases hn : fs.get? f.name with
    | some v =>
      dsimp only
      rw [h v hn]
      rfl
    | none => rfl

/-- The client name of a record made from a mapping. -/
def nameGiven (fs : Fields) : String :=
  (((fs.first? ["clientName", "client_name"]).bind Value.text?)).getD ""

/-- The number of a record made from a mapping, under one of two spellings. -/
def numberGiven (fs : Fields) (a b : String) : Int :=
  (Transport.integerOf (fs.first? [a, b])).getD (-1)

/-- The flag of a record made from a mapping. -/
def flagGiven (fs : Fields) (o : TransportOption) : Bool := Transport.flagOf (Transport.lookup fs o)

theorem read_name (hf : fs.Typed) :
    readField clientNameField "clientName" fs = .ok (nameGiven fs) := by
  have hn : ∀ v, fs.first? ["clientName", "client_name"] = some v → ∃ s, v = .text s := fun v hv =>
    (hf.first? (o := .clientName) (by decide) hv).text
  rw [readField_ok clientNameField "clientName" (fun v => v.text?.getD "") fun v hv => ?_]
  · congr 1
    show ((fs.first? ["clientName", "client_name"]).map _).getD _ = _
    unfold nameGiven
    cases hv : fs.first? ["clientName", "client_name"] <;> rfl
  · obtain ⟨s, rfl⟩ := hn v hv
    rfl

theorem read_number {f : FieldRule Int} {a : String} (hread : f.read = Settings.toInteger)
    (hback : f.fallback = -1)
    (hv : ∀ v, fs.first? [a, f.name] = some v → ∃ n, v = .whole n) :
    readField f a fs = .ok (numberGiven fs a f.name) := by
  rw [readField_ok f a (fun v => (Transport.integerOf (some v)).getD (-1)) fun v hf => ?_]
  · congr 1
    unfold numberGiven
    cases hf : fs.first? [a, f.name] with
    | none => exact hback
    | some v => rfl
  · obtain ⟨n, rfl⟩ := hv v hf
    rw [hread]
    rfl

theorem read_flag {f : FieldRule Bool} {a : String} {o : TransportOption} (hf : fs.Typed)
    (hread : f.read = Settings.toFlag) (hback : f.fallback = false) (ho : o.IsFlag)
    (hs : o.spellings = [a, f.name]) : readField f a fs = .ok (flagGiven fs o) := by
  rw [readField_ok f a (fun v => Transport.flagOf (some v)) fun v hv => ?_]
  · congr 1
    unfold flagGiven Transport.lookup
    rw [hs]
    cases fs.first? [a, f.name] with
    | none => exact hback
    | some v => rfl
  · obtain ⟨b, rfl⟩ := (hf.first? (o := o) (hs ▸ fun _ h => h) hv).flag ho
    rw [hread]
    cases b <;> rfl

/-- A mapping with values of the declared types is accepted. -/
theorem ofFields_ok (hf : fs.Typed) : ofFields fs = .ok
    { clientName := nameGiven fs
      connectionTimeoutMs := numberGiven fs "connectionTimeoutMs" "connection_timeout_ms"
      database := numberGiven fs "database" "database"
      tls := flagGiven fs .tls
      startTls := flagGiven fs .startTls
      verifyPeer := flagGiven fs .verifyPeer } := by
  have ht : readField timeoutField "connectionTimeoutMs" fs =
      .ok (numberGiven fs "connectionTimeoutMs" "connection_timeout_ms") :=
    read_number rfl rfl fun v hv => by
      obtain ⟨n, rfl, -⟩ := (hf.first? (o := .connectionTimeout) (by decide) hv).timeout
      exact ⟨n, rfl⟩
  have hd : readField databaseField "database" fs = .ok (numberGiven fs "database" "database") :=
    read_number rfl rfl fun v hv => (hf.first? (o := .database) (by decide) hv).database
  unfold ofFields
  rw [read_name hf, ht, hd, read_flag hf rfl rfl (.inl rfl) rfl,
    read_flag hf rfl rfl (.inr (.inl rfl)) rfl, read_flag hf rfl rfl (.inr (.inr rfl)) rfl]
  rfl

end ConnectionOptions

/-! ## Configurations -/

namespace Transport

open ConnectionOptions (nameGiven numberGiven flagGiven)

variable {fs : Fields}

theorem flagOf_flag (b : Bool) : flagOf (some (.flag b)) = b := by cases b <;> rfl

/-- A blank name stands for none, so a record without a name says the same as a mapping. -/
theorem textOf_nameGiven (hf : fs.Typed) :
    textOf (some (.text (nameGiven fs))) = textOf (lookup fs .clientName) := by
  have hn : ∀ v, fs.first? ["clientName", "client_name"] = some v → ∃ s, v = .text s := fun v hv =>
    (hf.first? (o := .clientName) (by decide) hv).text
  show _ = textOf (fs.first? ["clientName", "client_name"])
  unfold nameGiven
  cases hv : fs.first? ["clientName", "client_name"] with
  | none => rfl
  | some v =>
    obtain ⟨s, rfl⟩ := hn v hv
    rfl

/-- The number -1 stands for none. -/
theorem databaseOf_numberGiven :
    databaseOf (some (.whole (numberGiven fs "database" "database"))) =
      databaseOf (lookup fs .database) := by
  have hl : lookup fs .database = fs.first? ["database", "database"] := by
    rw [Fields.first?_pair]
    show ["database"].findSome? fs.get? = _
    cases h : fs.get? "database" <;> simp [h]
  rw [hl]
  unfold numberGiven databaseOf
  cases h : integerOf (fs.first? ["database", "database"]) <;> rfl

/-- A timeout that is a span of time is set, unless it is negative. -/
theorem timeoutOf_whole {n : Int} (h : (Duration.ofMilliseconds n).inRange = true) :
    timeoutOf (some (.whole n)) = .ok (if n < 0 then none else some (.ofMilliseconds n)) := by
  simp only [timeoutOf, integerOf, h, if_true]
  split <;> rfl

theorem timeout_eq_iff (n k : Int) :
    ((if n < 0 then none else some (Duration.ofMilliseconds n)) =
      if k < 0 then none else some (Duration.ofMilliseconds k)) ↔ max n (-1) = max k (-1) := by
  by_cases hn : n < 0 <;> by_cases hk : k < 0 <;>
    simp only [hn, hk, if_true, if_false, Option.some.injEq, Duration.ofMilliseconds,
      Duration.mk.injEq, reduceCtorEq, true_iff, false_iff] <;> omega

/-- The timeout that a mapping sets, in milliseconds; -1 if it sets none. -/
def timeoutGiven (fs : Fields) : Int := (integerOf (lookup fs .connectionTimeout)).getD (-1)

theorem timeoutOf_lookup (hf : fs.Typed) : timeoutOf (lookup fs .connectionTimeout) =
    .ok (if timeoutGiven fs < 0 then none else some (.ofMilliseconds (timeoutGiven fs))) := by
  unfold timeoutGiven
  cases hv : lookup fs .connectionTimeout with
  | none => rfl
  | some v =>
    obtain ⟨n, rfl, hr⟩ := (hf.first? (o := .connectionTimeout) (fun _ h => h) hv).timeout
    exact timeoutOf_whole hr

theorem timeoutOf_numberGiven (hf : fs.Typed) : timeoutOf
    (some (.whole (numberGiven fs "connectionTimeoutMs" "connection_timeout_ms"))) =
      .ok (if numberGiven fs "connectionTimeoutMs" "connection_timeout_ms" < 0 then none
        else some (.ofMilliseconds
          (numberGiven fs "connectionTimeoutMs" "connection_timeout_ms"))) := by
  refine timeoutOf_whole ?_
  unfold numberGiven
  cases hv : fs.first? ["connectionTimeoutMs", "connection_timeout_ms"] with
  | none => decide
  | some v =>
    obtain ⟨n, rfl, hr⟩ := (hf.first? (o := .connectionTimeout) (by decide) hv).timeout
    exact hr

/-- Only the spelling between the two that a record knows can make a difference. -/
theorem timeoutGiven_eq (hf : fs.Typed) :
    (max (timeoutGiven fs) (-1) =
      max (numberGiven fs "connectionTimeoutMs" "connection_timeout_ms") (-1)) ↔
    ∀ n, fs.get? "connectionTimeoutMs" = none → fs.get? "connectionTimeout" = some (.whole n) →
      max n (-1) = max ((integerOf (fs.get? "connection_timeout_ms")).getD (-1)) (-1) := by
  have hl : lookup fs .connectionTimeout = (fs.get? "connectionTimeoutMs").or
      ((fs.get? "connectionTimeout").or (fs.get? "connection_timeout_ms")) := by
    show ["connectionTimeoutMs", "connectionTimeout", "connection_timeout_ms"].findSome? fs.get? = _
    simp only [List.findSome?_cons, List.findSome?_nil]
    cases fs.get? "connectionTimeoutMs" <;> cases fs.get? "connectionTimeout" <;>
      cases fs.get? "connection_timeout_ms" <;> rfl
  unfold timeoutGiven numberGiven
  rw [hl, Fields.first?_pair]
  cases hm : fs.get? "connectionTimeoutMs" with
  | some v => simp
  | none =>
    cases hc : fs.get? "connectionTimeout" with
    | none => simp
    | some v =>
      obtain ⟨n, rfl, -⟩ := (hf.get? (o := .connectionTimeout) (by decide) hc).timeout
      simp [integerOf]

/-- A mapping with values of the declared types is accepted as a record, and with either of them
every endpoint has a configuration. The two are the same if and only if the mapping does not set the
timeout under its legacy spelling alone, to something that the record's own spelling does not
say. -/
theorem record_builds_same_iff (host : String) (port : Int) (password : Value) (hf : fs.Typed) :
    ∃ o t t', ConnectionOptions.ofFields fs = .ok o ∧
      build host port password (.mapping fs) = .ok t ∧
      build host port password (.record o) = .ok t' ∧
      (t = t' ↔ ∀ n, fs.get? "connectionTimeoutMs" = none →
        fs.get? "connectionTimeout" = some (.whole n) →
        max n (-1) = max ((integerOf (fs.get? "connection_timeout_ms")).getD (-1)) (-1)) := by
  refine ⟨_, _, _, ConnectionOptions.ofFields_ok hf,
    congrArg (Except.map _) (timeoutOf_lookup hf),
    congrArg (Except.map _) (timeoutOf_numberGiven hf), ?_⟩
  rw [← timeoutGiven_eq hf, ← timeout_eq_iff]
  constructor
  · exact congrArg Transport.timeout
  · intro ht
    rw [Transport.mk.injEq]
    exact ⟨rfl, rfl, (flagOf_flag _).symm, (flagOf_flag _).symm, (flagOf_flag _).symm,
      databaseOf_numberGiven.symm, ht, (textOf_nameGiven hf).symm, rfl⟩

/-- A name in two spellings and a timeout in all three. -/
def manySpellings : Fields :=
  [("client_name", .text "a"), ("clientName", .text "b"), ("ssl_enabled", .flag true),
   ("connectionTimeout", .whole 9), ("connection_timeout_ms", .whole 8),
   ("connectionTimeoutMs", .whole 7), ("database", .whole 0)]

theorem manySpellings_typed : manySpellings.Typed := by
  intro e he
  simp only [manySpellings, List.mem_cons, List.not_mem_nil, or_false] at he
  rcases he with rfl | rfl | rfl | rfl | rfl | rfl | rfl
  · exact ⟨.clientName, by decide, trivial⟩
  · exact ⟨.clientName, by decide, trivial⟩
  · exact ⟨.tls, by decide, trivial⟩
  · exact ⟨.connectionTimeout, by decide, rfl⟩
  · exact ⟨.connectionTimeout, by decide, rfl⟩
  · exact ⟨.connectionTimeout, by decide, rfl⟩
  · exact ⟨.database, by decide, trivial⟩

/-- Where the timeout has its first spelling, the others make no difference. -/
theorem record_builds_same_iff_of_manySpellings :
    manySpellings.Typed ∧ ∃ o t, ConnectionOptions.ofFields manySpellings = .ok o ∧
      build "h" 6379 (.text "pw") (.mapping manySpellings) = .ok t ∧
      build "h" 6379 (.text "pw") (.record o) = .ok t := by
  obtain ⟨o, t, t', ho, ht, ht', hs⟩ :=
    record_builds_same_iff "h" 6379 (.text "pw") manySpellings_typed
  rw [← hs.mpr fun n hn => by cases hn] at ht'
  exact ⟨manySpellings_typed, o, t, ho, ht, ht'⟩

/-- A timeout under its legacy spelling alone is set by a mapping and ignored by a record. -/
theorem legacy_timeout_lost : Fields.Typed [("connectionTimeout", .whole 9)] ∧
    ∃ o t t', ConnectionOptions.ofFields [("connectionTimeout", .whole 9)] = .ok o ∧
      build "h" 6379 (.text "pw") (.mapping [("connectionTimeout", .whole 9)]) = .ok t ∧
      build "h" 6379 (.text "pw") (.record o) = .ok t' ∧
      t.timeout = some ⟨9000⟩ ∧ t'.timeout = none := by
  refine ⟨fun e he => ?_, {}, _, _, rfl, rfl, rfl, rfl, rfl⟩
  cases List.mem_singleton.mp he
  exact ⟨.connectionTimeout, by decide, rfl⟩

end Transport
end RedisGateway
