import RedisGateway.Transport

/-!
What options give for each transport option: under which names it can stand, which of them counts if
there are several, and what is under a name in a mapping or a record. Looking an option up finds
what is given for it, and nothing else.
-/

namespace RedisGateway

theorem Fields.mem_of_get? {fs : Fields} {name : String} {v : Value} (h : fs.get? name = some v) :
    (name, v) ∈ fs := by
  obtain ⟨before, after, rfl, -⟩ := List.lookup_eq_some_iff.mp h
  exact List.mem_append_right _ List.mem_cons_self

namespace Options

/-- What is under a name. A mapping has its entries, a record one name for each of its fields. -/
inductive Under : Options → String → Value → Prop where
  | entry {fs : Fields} {name v} (h : fs.lookup name = some v) : Under (.mapping fs) name v
  | clientName {r} : Under (.record r) "clientName" (.text r.clientName)
  | timeout {r} : Under (.record r) "connectionTimeoutMs" (.whole r.connectionTimeoutMs)
  | database {r} : Under (.record r) "database" (.whole r.database)
  | tls {r} : Under (.record r) "sslEnabled" (.flag r.tls)
  | startTls {r} : Under (.record r) "startTlsEnabled" (.flag r.startTls)
  | verifyPeer {r} : Under (.record r) "verifyPeerEnabled" (.flag r.verifyPeer)

/-- What is under the first of some names that is there. -/
def First (options : Options) (names : List String) (v : Value) : Prop :=
  ∃ before name after, names = before ++ name :: after ∧ options.Under name v ∧
    ∀ earlier ∈ before, ∀ w, ¬options.Under earlier w

/-- What is given for an option: each has its names, and the first one that is there counts. -/
def Gives (options : Options) : TransportOption → Value → Prop
  | .clientName => options.First ["clientName", "client_name"]
  | .connectionTimeout =>
    options.First ["connectionTimeoutMs", "connectionTimeout", "connection_timeout_ms"]
  | .database => options.First ["database"]
  | .tls => options.First ["sslEnabled", "ssl_enabled"]
  | .startTls => options.First ["startTlsEnabled", "start_tls_enabled"]
  | .verifyPeer => options.First ["verifyPeerEnabled", "verify_peer_enabled"]

variable {options options' : Options} {o : TransportOption} {v : Value}

theorem under_iff {name : String} :
    options.Under name v ↔ options.toFields.get? name = some v := by
  constructor
  · rintro (h | _) <;> first | exact h | rfl
  · intro h
    cases options with
    | absent => cases h
    | mapping fs => exact .entry h
    | record r =>
      have hm := Fields.mem_of_get? h
      simp only [toFields, ConnectionOptions.toFields, List.mem_cons, Prod.mk.injEq,
        List.not_mem_nil, or_false] at hm
      rcases hm with ⟨rfl, rfl⟩ | ⟨rfl, rfl⟩ | ⟨rfl, rfl⟩ | ⟨rfl, rfl⟩ | ⟨rfl, rfl⟩ | ⟨rfl, rfl⟩
      · exact .clientName
      · exact .timeout
      · exact .database
      · exact .tls
      · exact .startTls
      · exact .verifyPeer

theorem first_iff {names : List String} :
    options.First names v ↔ options.toFields.first? names = some v := by
  simp only [First, Fields.first?, List.findSome?_eq_some_iff, under_iff]
  refine exists_congr fun before => exists_congr fun name => exists_congr fun after => ?_
  refine and_congr_right fun _ => and_congr_right fun _ => forall₂_congr fun earlier _ => ?_
  exact Option.eq_none_iff_forall_ne_some.symm

theorem gives_iff : options.Gives o v ↔ Transport.lookup options.toFields o = some v := by
  cases o <;> exact first_iff

/-- Options that give the same for an option are looked up alike. -/
theorem lookup_congr (h : ∀ v, options.Gives o v ↔ options'.Gives o v) :
    Transport.lookup options.toFields o = Transport.lookup options'.toFields o :=
  Option.ext fun v => gives_iff.symm.trans ((h v).trans gives_iff)

end Options
end RedisGateway
