import RedisGateway.Connector
import RedisGateway.Proofs.Transport.Given

/-!
The keywords that clients are opened with. They say what was given at the initialization and nothing
else: each option counts under its first spelling that is present, and which address of a cluster
they are made for makes no difference.
-/

namespace RedisGateway

/-! ## What clients of both topologies are told -/

/-- The names under which clients of both topologies are told something. -/
def Transport.sharedNames : List String :=
  ["password", "ssl", "ssl_cert_reqs", "ssl_check_hostname", "socket_connect_timeout",
   "socket_timeout", "client_name", "encoding", "encoding_errors", "decode_responses"]

/-- Keywords that say what was given, each under one name, and beside that nothing but what is under
`names`. -/
structure Keywords.Say (codec : Codec) (password : Value) (options : Options)
    (names : List String) (kws : Keywords) : Prop where
  once : (kws.map (·.1)).Nodup
  known : ∀ e ∈ kws, e.1 ∈ names ∨ e.1 ∈ Transport.sharedNames
  password : ∀ v, kws.lookup "password" = some v ↔
    ∃ s : LooseText, password = s.value ∧ s.allBlank = false ∧ v = .ofText s
  clientName : ∀ v, kws.lookup "client_name" = some v ↔
    ∃ s : LooseText, options.Gives .clientName s.value ∧ s.allBlank = false ∧ v = .ofText s
  /-- Encryption is on for the value true only, and so is the check of the peer. -/
  tls : ∀ v, kws.lookup "ssl" = some v ↔
    options.Gives .tls (.flag true) ∧ v = .flag true
  certificate : ∀ v, kws.lookup "ssl_cert_reqs" = some v ↔
    options.Gives .tls (.flag true) ∧
      (options.Gives .verifyPeer (.flag true) ∧ v = .text "required" ∨
        ¬options.Gives .verifyPeer (.flag true) ∧ v = .text "none")
  hostName : ∀ v, kws.lookup "ssl_check_hostname" = some v ↔
    options.Gives .tls (.flag true) ∧
      (options.Gives .verifyPeer (.flag true) ∧ v = .flag true ∨
        ¬options.Gives .verifyPeer (.flag true) ∧ v = .flag false)
  timeouts : ∀ name ∈ ["socket_connect_timeout", "socket_timeout"], ∀ v,
    kws.lookup name = some v ↔ ∃ n, options.Gives .connectionTimeout (.whole n) ∧ 0 ≤ n ∧
      v = .seconds (.ofMilliseconds n)
  encoding : kws.lookup "encoding" = some (.text codec.encoding) ∧
    kws.lookup "encoding_errors" = some (.text codec.encodingErrors) ∧
    kws.lookup "decode_responses" = some (.flag codec.decodeResponses)

namespace Transport

/-! ## Values of options -/

theorem flagOf_eq_true {v : Option Value} : flagOf v = true ↔ v = some (.flag true) := by
  constructor
  · intro h
    unfold flagOf at h
    split at h
    · rfl
    · cases h
  · rintro rfl
    rfl

theorem flagOf_lookup {options : Options} {o : TransportOption} :
    flagOf (lookup options.toFields o) = true ↔ options.Gives o (.flag true) :=
  flagOf_eq_true.trans Options.gives_iff.symm

theorem looseText?_eq_some {v : Value} {s : LooseText} :
    v.looseText? = some s ↔ v = s.value := by
  constructor
  · intro h
    unfold Value.looseText? at h
    split at h <;> cases h <;> rfl
  · rintro rfl
    cases s <;> rfl

theorem textOf_eq_some {v : Option Value} {s : LooseText} :
    textOf v = some s ↔ v = some s.value ∧ s.allBlank = false := by
  simp only [textOf, Option.filter_eq_some_iff, Option.bind_eq_some_iff, looseText?_eq_some,
    Bool.not_eq_true']
  constructor
  · rintro ⟨⟨_, rfl, rfl⟩, hb⟩
    exact ⟨rfl, hb⟩
  · rintro ⟨rfl, hb⟩
    exact ⟨⟨_, rfl, rfl⟩, hb⟩

theorem textSetting_eq_some {w : Option Value} {v : Setting} :
    (textOf w).map Setting.ofText = some v ↔
      ∃ s : LooseText, w = some s.value ∧ s.allBlank = false ∧ v = .ofText s := by
  rw [Option.map_eq_some_iff]
  constructor
  · rintro ⟨s, hs, rfl⟩
    obtain ⟨hw, hb⟩ := textOf_eq_some.mp hs
    exact ⟨s, hw, hb, rfl⟩
  · rintro ⟨s, hw, hb, rfl⟩
    exact ⟨s, textOf_eq_some.mpr ⟨hw, hb⟩, rfl⟩

theorem some_if_eq_some {α : Type} {p : Prop} [Decidable p] {a v : α} :
    (if p then some a else none) = some v ↔ p ∧ v = a := by
  by_cases h : p <;> simp [h, eq_comm]

theorem databaseOf_eq_some {v : Option Value} {n : Int} :
    databaseOf v = some n ↔ v = some (.whole n) ∧ n ≠ -1 := by
  unfold databaseOf integerOf
  split <;> simp_all [Option.filter_eq_some_iff]

theorem timeoutOf_eq_some {v : Option Value} {timeout : Option Duration}
    (h : timeoutOf v = .ok timeout) (d : Duration) :
    timeout = some d ↔ ∃ n, v = some (.whole n) ∧ 0 ≤ n ∧ d = .ofMilliseconds n := by
  unfold timeoutOf integerOf at h
  split at h
  · rename_i n hv
    split at hv
    · cases hv
      split at h
      · cases h
        simp only [reduceCtorEq, Option.some.injEq, Value.whole.injEq, false_iff]
        rintro ⟨n, rfl, hn, -⟩
        omega
      · split at h
        · cases h
          simp only [Option.some.injEq, Value.whole.injEq]
          constructor
          · rintro rfl
            exact ⟨_, rfl, by omega, rfl⟩
          · rintro ⟨n, rfl, -, rfl⟩
            rfl
        · cases h
    · cases hv
  · rename_i hv
    cases h
    simp only [reduceCtorEq, false_iff]
    rintro ⟨n, rfl, -⟩
    cases hv

/-! ## Keywords as a table -/

theorem lookup_cons_if {α : Type} (key name : String) (v : α) (l : List (String × α)) :
    ((name, v) :: l).lookup key = if key = name then some v else l.lookup key := by
  rw [List.lookup_cons]
  by_cases h : key = name
  · simp [h]
  · simp [beq_eq_false_iff_ne.mpr h, h]

theorem lookup_keyword? {α : Type} (name : String) (make : α → Setting) (o : Option α)
    (key : String) :
    (keyword? name make o).lookup key = if key = name then o.map make else none := by
  cases o with
  | none => simp [keyword?]
  | some a => simp [keyword?, lookup_cons_if]

theorem lookup_tlsKeywords (t : Transport) (key : String) : t.tlsKeywords.lookup key =
    if key = "ssl" then if t.tls = true then some (.flag true) else none
    else if key = "ssl_cert_reqs" then
      if t.tls = true then some (.text (if t.verifyPeer then "required" else "none")) else none
    else if key = "ssl_check_hostname" then
      if t.tls = true then some (.flag t.verifyPeer) else none
    else none := by
  unfold tlsKeywords
  by_cases h : t.tls = true
  · simp only [if_pos h, lookup_cons_if, List.lookup_nil]
  · simp only [if_neg h, List.lookup_nil, ite_self]

/-- The table of the keywords that clients of both topologies take. -/
theorem lookup_sharedKeywords (t : Transport) (c : Codec) (key : String) :
    (t.sharedKeywords c).lookup key =
      (if key = "password" then t.password.map Setting.ofText else none).or
        ((t.tlsKeywords.lookup key).or
          ((if key = "socket_connect_timeout" then t.timeout.map .seconds else none).or
            ((if key = "socket_timeout" then t.timeout.map .seconds else none).or
              ((if key = "client_name" then t.clientName.map .ofText else none).or
                (c.keywords.lookup key))))) := by
  simp only [sharedKeywords, List.lookup_append, lookup_keyword?, Option.or_assoc]

section
variable (t : Transport) (c : Codec)

theorem lookup_password :
    (t.sharedKeywords c).lookup "password" = t.password.map Setting.ofText := by
  simp [lookup_sharedKeywords, lookup_tlsKeywords, Codec.keywords, lookup_cons_if]

theorem lookup_clientName :
    (t.sharedKeywords c).lookup "client_name" = t.clientName.map Setting.ofText := by
  simp [lookup_sharedKeywords, lookup_tlsKeywords, Codec.keywords, lookup_cons_if]

variable {t c} {key : String}

theorem lookup_tls (h : key ∈ ["ssl", "ssl_cert_reqs", "ssl_check_hostname"]) :
    (t.sharedKeywords c).lookup key = t.tlsKeywords.lookup key := by
  simp only [List.mem_cons, List.not_mem_nil, or_false] at h
  rcases h with rfl | rfl | rfl <;>
    simp [lookup_sharedKeywords, Codec.keywords, lookup_cons_if]

theorem lookup_timeout (h : key ∈ ["socket_connect_timeout", "socket_timeout"]) :
    (t.sharedKeywords c).lookup key = t.timeout.map .seconds := by
  simp only [List.mem_cons, List.not_mem_nil, or_false] at h
  rcases h with rfl | rfl <;>
    simp [lookup_sharedKeywords, lookup_tlsKeywords, Codec.keywords, lookup_cons_if]

theorem lookup_codec (h : key ∈ ["encoding", "encoding_errors", "decode_responses"]) :
    (t.sharedKeywords c).lookup key = c.keywords.lookup key := by
  simp only [List.mem_cons, List.not_mem_nil, or_false] at h
  rcases h with rfl | rfl | rfl <;> simp [lookup_sharedKeywords, lookup_tlsKeywords]

end

theorem names_keyword? {α : Type} (name : String) (make : α → Setting) (o : Option α) :
    (keyword? name make o).map (·.1) = if o.isSome then [name] else [] := by
  cases o <;> rfl

/-- The names of the shared keywords, in order, are among those that are known. -/
theorem names_sharedKeywords (t : Transport) (c : Codec) :
    ((t.sharedKeywords c).map (·.1)).Sublist sharedNames := by
  have one : ∀ {α : Type} (name : String) (make : α → Setting) (o : Option α),
      ((keyword? name make o).map (·.1)).Sublist [name] := by
    intro α name make o
    rw [names_keyword?]
    split
    · exact .refl _
    · exact List.nil_sublist _
  have tls : (t.tlsKeywords.map (·.1)).Sublist ["ssl", "ssl_cert_reqs", "ssl_check_hostname"] := by
    unfold tlsKeywords
    split
    · exact .refl _
    · exact List.nil_sublist _
  simp only [sharedKeywords, List.map_append]
  exact (((((one ..).append tls).append (one ..)).append (one ..)).append (one ..)).append
    (.refl ["encoding", "encoding_errors", "decode_responses"])

theorem build_ok {host : String} {port : Int} {password : Value} {options : Options}
    {t : Transport} (h : build host port password options = .ok t) :
    ∃ timeout, timeoutOf (lookup options.toFields .connectionTimeout) = .ok timeout ∧
      t = { host, port, timeout
            tls := flagOf (lookup options.toFields .tls)
            startTls := flagOf (lookup options.toFields .startTls)
            verifyPeer := flagOf (lookup options.toFields .verifyPeer)
            database := databaseOf (lookup options.toFields .database)
            clientName := textOf (lookup options.toFields .clientName)
            password := textOf (some password) } := by
  unfold build at h
  dsimp only at h
  cases ht : timeoutOf (lookup options.toFields .connectionTimeout) with
  | error f =>
    rw [ht] at h
    cases h
  | ok timeout =>
    rw [ht] at h
    cases h
    exact ⟨timeout, rfl, rfl⟩

/-- Which endpoint a configuration is for makes no difference to the rest of it. -/
theorem build_elsewhere {host : String} {port : Int} {password : Value} {options : Options}
    {t : Transport} (h : build host port password options = .ok t) (host' : String)
    (port' : Int) : build host' port' password options =
      .ok { t with host := host', port := port' } := by
  obtain ⟨timeout, ht, rfl⟩ := build_ok h
  unfold build
  dsimp only
  rw [show timeoutOf (lookup options.toFields .connectionTimeout) = .ok timeout from ht]
  rfl

section
variable {host : String} {port : Int} {password : Value} {options : Options} {t : Transport}
  {codec : Codec} {front : Keywords} {names : List String}

/-- What stands in front under other names hides nothing of the shared keywords. -/
theorem lookup_behind (hf : (front.map (·.1)).Sublist names) (hn : (names ++ sharedNames).Nodup)
    {key : String} (hk : key ∈ sharedNames) :
    (front ++ t.sharedKeywords codec).lookup key = (t.sharedKeywords codec).lookup key := by
  have hnone : front.lookup key = none := by
    refine List.lookup_eq_none_iff.mpr fun e he => bne_iff_ne.mpr fun heq => ?_
    have hm : key ∈ names := heq ▸ hf.subset (List.mem_map_of_mem he)
    exact (List.nodup_append.mp hn).2.2 key hm key hk rfl
  rw [List.lookup_append, hnone, Option.none_or]

/-- The keywords made from a configuration say what was given, and what is put in front of them. -/
theorem say_of_build (h : build host port password options = .ok t)
    (hf : (front.map (·.1)).Sublist names) (hn : (names ++ sharedNames).Nodup) :
    (front ++ t.sharedKeywords codec).Say codec password options names := by
  have hnames := names_sharedKeywords t codec
  obtain ⟨timeout, htime, ht⟩ := build_ok h
  have hpass : t.password = textOf (some password) := by rw [ht]
  have hname : t.clientName = textOf (lookup options.toFields .clientName) := by rw [ht]
  have htls : t.tls = flagOf (lookup options.toFields .tls) := by rw [ht]
  have hpeer : t.verifyPeer = flagOf (lookup options.toFields .verifyPeer) := by rw [ht]
  have hout : t.timeout = timeout := by rw [ht]
  have look : ∀ {key}, key ∈ sharedNames → (front ++ t.sharedKeywords codec).lookup key =
      (t.sharedKeywords codec).lookup key := lookup_behind hf hn
  refine ⟨?_, fun e he => ?_, fun v => ?_, fun v => ?_, fun v => ?_, fun v => ?_, fun v => ?_,
    fun name hm v => ?_, ?_, ?_, ?_⟩
  · rw [List.map_append]
    exact hn.sublist (hf.append hnames)
  · rcases List.mem_append.mp he with he | he
    · exact .inl (hf.subset (List.mem_map_of_mem he))
    · exact .inr (hnames.subset (List.mem_map_of_mem he))
  · rw [look (by decide), lookup_password, hpass, textSetting_eq_some]
    simp only [Option.some.injEq]
  · rw [look (by decide), lookup_clientName, hname, textSetting_eq_some]
    simp only [Options.gives_iff]
  · rw [look (by decide), lookup_tls (by decide), lookup_tlsKeywords, if_pos rfl,
      some_if_eq_some, htls, flagOf_lookup]
  · rw [look (by decide), lookup_tls (by decide), lookup_tlsKeywords, if_neg (by decide),
      if_pos rfl, some_if_eq_some, htls, hpeer, flagOf_lookup]
    by_cases hp : options.Gives .verifyPeer (.flag true)
    · simp [flagOf_lookup.mpr hp, hp]
    · simp [Bool.eq_false_iff.mpr (mt flagOf_lookup.mp hp), hp]
  · rw [look (by decide), lookup_tls (by decide), lookup_tlsKeywords, if_neg (by decide),
      if_neg (by decide), if_pos rfl, some_if_eq_some, htls, hpeer, flagOf_lookup]
    by_cases hp : options.Gives .verifyPeer (.flag true)
    · simp [flagOf_lookup.mpr hp, hp]
    · simp [Bool.eq_false_iff.mpr (mt flagOf_lookup.mp hp), hp]
  · have hs : ∀ name ∈ ["socket_connect_timeout", "socket_timeout"], name ∈ sharedNames := by
      decide
    rw [look (hs name hm), lookup_timeout hm, hout, Option.map_eq_some_iff]
    constructor
    · rintro ⟨d, hd, rfl⟩
      obtain ⟨n, hv, hn, rfl⟩ := (timeoutOf_eq_some htime d).mp hd
      exact ⟨n, Options.gives_iff.mpr hv, hn, rfl⟩
    · rintro ⟨n, hv, hn, rfl⟩
      exact ⟨_, (timeoutOf_eq_some htime _).mpr ⟨n, Options.gives_iff.mp hv, hn, rfl⟩, rfl⟩
  all_goals
    rw [look (by decide), lookup_codec (by decide)]
    rfl

end

end Transport
end RedisGateway
