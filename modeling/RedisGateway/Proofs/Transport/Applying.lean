import RedisGateway.Proofs.Transport.Keywords

/-!
What a configuration makes of the options. Each one that is given as it has to be is applied, any
other one falls back to what holds without it, whatever it is. One value alone is neither: a timeout
that is longer than spans of time can be is refused, and with it the whole configuration.
-/

namespace RedisGateway

/-- The first timeout in milliseconds that no span of time can hold. -/
def Duration.firstOverlong : Int := 86400000000000000

theorem Duration.inRange_ofMilliseconds {n : Int} (h : 0 ≤ n) :
    (ofMilliseconds n).inRange = true ↔ n < firstOverlong := by
  simp only [inRange, days, ofMilliseconds, maxDays, firstOverlong, Bool.and_eq_true,
    decide_eq_true_eq, Int.fdiv_eq_ediv]
  omega

/-- A timeout is given that is longer than spans of time can be. -/
def Options.Overlong (options : Options) : Prop :=
  ∃ n, options.Gives .connectionTimeout (.whole n) ∧ Duration.firstOverlong ≤ n

namespace Transport

/-- The configuration applies what is given as it has to be, and falls back for the rest: a flag is
set by the value true only, the database by an integer other than -1, the timeout by one that is not
negative, and the client name and the password by texts that are not blank. -/
structure Heeds (t : Transport) (host : String) (port : Int) (password : Value)
    (options : Options) : Prop where
  host : t.host = host
  port : t.port = port
  tls : t.tls = true ↔ options.Gives .tls (.flag true)
  startTls : t.startTls = true ↔ options.Gives .startTls (.flag true)
  verifyPeer : t.verifyPeer = true ↔ options.Gives .verifyPeer (.flag true)
  database : ∀ n, t.database = some n ↔ options.Gives .database (.whole n) ∧ n ≠ -1
  timeout : ∀ d, t.timeout = some d ↔
    ∃ n, options.Gives .connectionTimeout (.whole n) ∧ 0 ≤ n ∧ d = .ofMilliseconds n
  clientName : ∀ s, t.clientName = some s ↔
    options.Gives .clientName s.value ∧ s.allBlank = false
  password : ∀ s, t.password = some s ↔ password = s.value ∧ s.allBlank = false

/-- A value that is no integer gives no timeout, so there is nothing that could be too long. -/
theorem timeoutOf_of_not_integer {v : Option Value} (h : integerOf v = none) :
    timeoutOf v = .ok none := by
  simp [timeoutOf, h]

theorem timeoutOf_integer (n : Int) :
    timeoutOf (some (.whole n)) = if n < 0 then .ok none
      else if n < Duration.firstOverlong then .ok (some (.ofMilliseconds n))
      else .error .timeoutOutOfRange := by
  by_cases hn : n < 0
  · simp [timeoutOf, integerOf, hn]
  · have hr := Duration.inRange_ofMilliseconds (n := n) (by omega)
    simp [timeoutOf, integerOf, hn, hr]

/-- The only values that a timeout is not made of are integers that are too large. -/
theorem timeoutOf_eq_error {v : Option Value} {f : Fault} :
    timeoutOf v = .error f ↔
      (∃ n, v = some (.whole n) ∧ Duration.firstOverlong ≤ n) ∧ f = .timeoutOutOfRange := by
  cases hv : integerOf v with
  | none =>
    rw [timeoutOf_of_not_integer hv]
    constructor
    · intro h
      cases h
    · rintro ⟨⟨n, rfl, -⟩, -⟩
      cases hv
  | some n =>
    have hw : v = some (.whole n) := by
      unfold integerOf at hv
      split at hv <;> simp_all
    subst hw
    rw [timeoutOf_integer]
    by_cases hn : n < Duration.firstOverlong
    · have h : ¬Duration.firstOverlong ≤ n := by omega
      by_cases h0 : n < 0 <;> simp [h0, hn, h]
    · have h0 : ¬n < 0 := by
        simp only [Duration.firstOverlong] at hn
        omega
      simp [h0, hn, eq_comm, Int.not_lt.mp hn]

theorem build_eq_error {host : String} {port : Int} {password : Value} {options : Options}
    {f : Fault} :
    build host port password options = .error f ↔ options.Overlong ∧ f = .timeoutOutOfRange := by
  simp only [Options.Overlong, Options.gives_iff]
  rw [← timeoutOf_eq_error]
  unfold build
  dsimp only
  cases timeoutOf (lookup options.toFields .connectionTimeout) with
  | ok timeout => simp [Except.map]
  | error e => simp [Except.map]

/-- Whatever is built heeds what it is built from. -/
theorem heeds_of_build {host : String} {port : Int} {password : Value} {options : Options}
    {t : Transport} (h : build host port password options = .ok t) :
    t.Heeds host port password options := by
  obtain ⟨timeout, ht, rfl⟩ := build_ok h
  exact {
    host := rfl
    port := rfl
    tls := flagOf_lookup
    startTls := flagOf_lookup
    verifyPeer := flagOf_lookup
    database := fun n => by rw [Options.gives_iff, databaseOf_eq_some]
    timeout := fun d => by simpa only [Options.gives_iff] using timeoutOf_eq_some ht d
    clientName := fun s => by rw [Options.gives_iff, textOf_eq_some]
    password := fun s => by simpa using textOf_eq_some (v := some password) }

/-- For every endpoint and whatever is given as password and options, there is a configuration,
which applies what can be applied and falls back for the rest, exactly when no timeout is given that
is longer than spans of time can be; nothing else is ever refused. A mapping is given by its entries
under texts, as any other key names no option. -/
theorem builds_unless_overlong (host : String) (port : Int) (password : Value)
    (options : Options) :
    ((∃ t, build host port password options = .ok t ∧ t.Heeds host port password options) ↔
        ¬options.Overlong) ∧
      ∀ f, build host port password options = .error f ↔
        options.Overlong ∧ f = .timeoutOutOfRange := by
  refine ⟨⟨?_, ?_⟩, fun f => build_eq_error⟩
  · rintro ⟨t, ht, -⟩ long
    rw [build_eq_error.mpr ⟨long, rfl⟩] at ht
    cases ht
  · intro short
    cases hb : build host port password options with
    | ok t => exact ⟨t, rfl, heeds_of_build hb⟩
    | error f => exact absurd (build_eq_error.mp hb).1 short

/-- One millisecond more than the longest span, and the options are refused. -/
theorem overlong_timeout_refused :
    build "h" 1 .none (.mapping [("connectionTimeoutMs", .whole 86400000000000000)]) =
      .error .timeoutOutOfRange := by
  rfl

end Transport
end RedisGateway
