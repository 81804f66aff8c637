import RedisGateway.Proofs.Address.RoundTrip
import RedisGateway.Proofs.Transport.Keywords

/-!
The request that a manager opens its clients with, as a function of what it was made with and what
it was initialized with. The limits of its pool have no part in it, and neither has what happened
before.
-/

namespace RedisGateway
namespace ClientRequest

variable {topology : Topology} {pooling : Bool} {codec : Codec} {hosts : String} {password : Value}
  {options : Options} {request : ClientRequest}

/-- The configuration of an address, if it can be made and shown. -/
def configured? (a : ServerAddress) (password : Value) (options : Options) : Option Transport :=
  (Transport.build a.host a.port password options).toOption.filter (·.isShowable)

/-- The request for clients of a topology. A single node has a single address; in a cluster the
first address stands for all of them. -/
def planned? (topology : Topology) (pooling : Bool) (codec : Codec) (hosts : String)
    (password : Value) (options : Options) : Option ClientRequest :=
  match topology, ServerAddress.resolve hosts with
  | .standalone, .ok [a] =>
    (configured? a password options).map fun t =>
      .standalone ((if pooling then Connector.singleConnection else []) ++
        t.endpointKeywords codec)
  | .cluster, .ok (a :: rest) =>
    (configured? a password options).map fun t =>
      .cluster (t.sharedKeywords codec) ((a :: rest).map fun a => (a.host, a.port))
  | _, _ => none

/-- The names under which a client of a single node is told more than other clients. -/
def endpointNames : List String := ["single_connection_client", "host", "port", "db"]

/-- The keywords of a client of a single node. -/
structure ForNode (pooling : Bool) (codec : Codec) (hosts : String) (password : Value)
    (options : Options) (kws : Keywords) : Prop where
  told : kws.Say codec password options endpointNames
  /-- There is one address. -/
  endpoint : ∃ a, ServerAddress.resolve hosts = .ok [a] ∧
    kws.lookup "host" = some (.text a.host) ∧ kws.lookup "port" = some (.number a.port)
  /-- The value -1 stands for no database. -/
  database : ∀ v, kws.lookup "db" = some v ↔
    ∃ n, options.Gives .database (.whole n) ∧ n ≠ -1 ∧ v = .number n
  single : ∀ v, kws.lookup "single_connection_client" = some v ↔ pooling = true ∧ v = .flag true

/-- The keywords and the startup nodes of a client of a cluster. -/
structure ForCluster (codec : Codec) (hosts : String) (password : Value) (options : Options)
    (kws : Keywords) (nodes : List (String × Int)) : Prop where
  told : kws.Say codec password options []
  nowhere : ∀ name ∈ endpointNames, kws.lookup name = none
  /-- All addresses are startup nodes, and the keywords are those of any of them. -/
  anywhere : ∃ addresses, ServerAddress.resolve hosts = .ok addresses ∧
    nodes = addresses.map (fun a => (a.host, a.port)) ∧
    ∀ a ∈ addresses, ∃ t, Transport.build a.host a.port password options = .ok t ∧
      t.sharedKeywords codec = kws

/-- A request that asks for what was given. -/
def AsGiven (topology : Topology) (pooling : Bool) (codec : Codec) (hosts : String)
    (password : Value) (options : Options) : ClientRequest → Prop
  | .standalone kws => topology = .standalone ∧ ForNode pooling codec hosts password options kws
  | .cluster kws nodes => topology = .cluster ∧ ForCluster codec hosts password options kws nodes

theorem configured?_eq_some {a : ServerAddress} {t : Transport} :
    configured? a password options = some t ↔
      Transport.build a.host a.port password options = .ok t ∧ t.isShowable = true := by
  rw [configured?, Option.filter_eq_some_iff]
  cases Transport.build a.host a.port password options <;> simp [Except.toOption]

/-! ## Clients of a single node -/

theorem planned_standalone {a : ServerAddress} {t : Transport}
    (hr : ServerAddress.resolve hosts = .ok [a])
    (ht : Transport.build a.host a.port password options = .ok t) (hs : t.isShowable = true) :
    planned? .standalone pooling codec hosts password options =
      some (.standalone ((if pooling then Connector.singleConnection else []) ++
        t.endpointKeywords codec)) := by
  simp only [planned?, hr, configured?_eq_some.mpr ⟨ht, hs⟩, Option.map_some]

/-- What stands in front of the shared keywords of a client of a single node. -/
def placing (pooling : Bool) (t : Transport) : Keywords :=
  (if pooling then Connector.singleConnection else []) ++
    ([("host", .text t.host), ("port", .number t.port)] ++
      Transport.keyword? "db" .number t.database)

theorem endpoint_eq (t : Transport) :
    (if pooling then Connector.singleConnection else []) ++ t.endpointKeywords codec =
      placing pooling t ++ t.sharedKeywords codec := by
  simp only [placing, Transport.endpointKeywords, List.append_assoc]

theorem names_placing (t : Transport) :
    ((placing pooling t).map (·.1)).Sublist endpointNames := by
  simp only [placing, List.map_append, Transport.names_keyword?]
  have single : ((if pooling then Connector.singleConnection else []).map (·.1)).Sublist
      ["single_connection_client"] := by
    cases pooling
    · exact List.nil_sublist _
    · exact .refl _
  refine single.append (.append (.refl ["host", "port"]) ?_)
  split
  · exact .refl _
  · exact List.nil_sublist _

/-- The shared keywords say nothing of an endpoint. -/
theorem lookup_shared_none (t : Transport) {name : String} (h : name ∈ endpointNames) :
    (t.sharedKeywords codec).lookup name = none := by
  have apart : ∀ name ∈ endpointNames, name ∉ Transport.sharedNames := by decide
  refine List.lookup_eq_none_iff.mpr fun e he => bne_iff_ne.mpr fun heq => ?_
  exact apart name h (heq ▸ (Transport.names_sharedKeywords t codec).subset
    (List.mem_map_of_mem he))

theorem lookup_placing (t : Transport) (name : String) :
    (placing pooling t).lookup name =
      (if name = "single_connection_client" ∧ pooling = true then some (.flag true) else none).or
        ((if name = "host" then some (.text t.host) else
          if name = "port" then some (.number t.port) else none).or
            (if name = "db" then t.database.map .number else none)) := by
  have single : (if pooling then Connector.singleConnection else []).lookup name =
      if name = "single_connection_client" ∧ pooling = true then some (.flag true) else none := by
    cases pooling
    · simp
    · simp [Connector.singleConnection, Transport.lookup_cons_if]
  simp only [placing, List.lookup_append, single, Transport.lookup_cons_if, List.lookup_nil,
    Transport.lookup_keyword?]

theorem forNode {a : ServerAddress} {t : Transport}
    (hr : ServerAddress.resolve hosts = .ok [a])
    (ht : Transport.build a.host a.port password options = .ok t) :
    ForNode pooling codec hosts password options
      ((if pooling then Connector.singleConnection else []) ++ t.endpointKeywords codec) := by
  rw [endpoint_eq]
  have look : ∀ {name}, name ∈ endpointNames →
      (placing pooling t ++ t.sharedKeywords codec).lookup name =
        (placing pooling t).lookup name := by
    intro name h
    rw [List.lookup_append, lookup_shared_none t h, Option.or_none]
  obtain ⟨timeout, -, hb⟩ := Transport.build_ok ht
  refine ⟨Transport.say_of_build ht (names_placing t) (by decide), ⟨a, hr, ?_, ?_⟩,
    fun v => ?_, fun v => ?_⟩
  · rw [look (by decide), lookup_placing, hb]
    rfl
  · rw [look (by decide), lookup_placing, hb]
    rfl
  · rw [look (by decide), lookup_placing]
    simp only [show t.database = Transport.databaseOf
        (Transport.lookup options.toFields .database) by rw [hb], Options.gives_iff,
      String.reduceEq, false_and, if_false, if_true, Option.none_or,
      Option.map_eq_some_iff, Transport.databaseOf_eq_some]
    constructor
    · rintro ⟨n, ⟨hv, hn⟩, rfl⟩
      exact ⟨n, hv, hn, rfl⟩
    · rintro ⟨n, hv, hn, rfl⟩
      exact ⟨n, ⟨hv, hn⟩, rfl⟩
  · rw [look (by decide), lookup_placing]
    simp [eq_comm]

/-! ## Clients of a cluster -/

theorem planned_cluster {a : ServerAddress} {rest : List ServerAddress} {t : Transport}
    (hr : ServerAddress.resolve hosts = .ok (a :: rest))
    (ht : Transport.build a.host a.port password options = .ok t) (hs : t.isShowable = true) :
    planned? .cluster pooling codec hosts password options =
      some (.cluster (t.sharedKeywords codec) ((a :: rest).map fun a => (a.host, a.port))) := by
  simp only [planned?, hr, configured?_eq_some.mpr ⟨ht, hs⟩, Option.map_some]

theorem forCluster {a : ServerAddress} {rest : List ServerAddress} {t : Transport}
    (hr : ServerAddress.resolve hosts = .ok (a :: rest))
    (ht : Transport.build a.host a.port password options = .ok t) :
    ForCluster codec hosts password options (t.sharedKeywords codec)
      ((a :: rest).map fun a => (a.host, a.port)) := by
  refine ⟨?_, fun name h => lookup_shared_none t h, _, hr, rfl, fun b _ => ?_⟩
  · exact @Transport.say_of_build _ _ _ _ _ codec [] [] ht (.refl _) (by decide)
  · exact ⟨_, Transport.build_elsewhere ht b.host b.port, rfl⟩

/-- What is planned is made from the configuration of the first address. -/
theorem planned_cases
    (h : planned? topology pooling codec hosts password options = some request) :
    (∃ a t, topology = .standalone ∧ ServerAddress.resolve hosts = .ok [a] ∧
      Transport.build a.host a.port password options = .ok t ∧ t.isShowable = true ∧
      request = .standalone ((if pooling then Connector.singleConnection else []) ++
        t.endpointKeywords codec)) ∨
    ∃ a rest t, topology = .cluster ∧ ServerAddress.resolve hosts = .ok (a :: rest) ∧
      Transport.build a.host a.port password options = .ok t ∧ t.isShowable = true ∧
      request = .cluster (t.sharedKeywords codec)
        ((a :: rest).map fun a => (a.host, a.port)) := by
  unfold planned? at h
  split at h
  · rename_i a hr
    obtain ⟨t, ht, rfl⟩ := Option.map_eq_some_iff.mp h
    obtain ⟨hb, hs⟩ := configured?_eq_some.mp ht
    exact .inl ⟨a, t, rfl, hr, hb, hs, rfl⟩
  · rename_i a rest hr
    obtain ⟨t, ht, rfl⟩ := Option.map_eq_some_iff.mp h
    obtain ⟨hb, hs⟩ := configured?_eq_some.mp ht
    exact .inr ⟨a, rest, t, rfl, hr, hb, hs, rfl⟩
  · cases h

theorem resolve_of_planned
    (h : planned? topology pooling codec hosts password options = some request) :
    ∃ as, ServerAddress.resolve hosts = .ok as := by
  rcases planned_cases h with ⟨a, t, -, hr, -⟩ | ⟨a, rest, t, -, hr, -⟩
  · exact ⟨_, hr⟩
  · exact ⟨_, hr⟩

/-- What is planned asks for what was given. -/
theorem asGiven_of_planned
    (h : planned? topology pooling codec hosts password options = some request) :
    request.AsGiven topology pooling codec hosts password options := by
  rcases planned_cases h with ⟨a, t, rfl, hr, ht, -, rfl⟩ | ⟨a, rest, t, rfl, hr, ht, -, rfl⟩
  · exact ⟨rfl, forNode hr ht⟩
  · exact ⟨rfl, forCluster hr ht⟩

end ClientRequest
end RedisGateway
