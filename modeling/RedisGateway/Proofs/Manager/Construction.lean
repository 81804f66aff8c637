import RedisGateway.Manager
import RedisGateway.Proofs.Transport.Spellings

/-!
Managers made from settings. The settings pass their transport options on as a record, and a caller
that makes the same manager by hand passes them on as a mapping, in spellings of its own choice. The
two come to the same.
-/

namespace RedisGateway

/-! ## Mappings that say what a record says -/

/-- The value that a record has for an option. -/
def ConnectionOptions.value (o : ConnectionOptions) : TransportOption → Value
  | .clientName => .text o.clientName
  | .connectionTimeout => .whole o.connectionTimeoutMs
  | .database => .whole o.database
  | .tls => .flag o.tls
  | .startTls => .flag o.startTls
  | .verifyPeer => .flag o.verifyPeer

namespace Fields

/-- Every option of a record is there with its value, under one of its spellings, and not with
another value under another one. -/
def Holds (fs : Fields) (o : ConnectionOptions) : Prop :=
  ∀ option : TransportOption, (∃ name ∈ option.spellings, fs.get? name = some (o.value option)) ∧
    ∀ name ∈ option.spellings, ∀ v, fs.get? name = some v → v = o.value option

theorem get?_ne_none {fs : Fields} {name : String} {v : Value} (h : (name, v) ∈ fs) :
    fs.get? name ≠ none := by
  intro hn
  have := List.lookup_eq_none_iff.mp hn _ h
  simp at this

variable {fs : Fields} {o : ConnectionOptions}

theorem Holds.lookup (h : fs.Holds o) (option : TransportOption) :
    Transport.lookup fs option = some (o.value option) := by
  obtain ⟨⟨name, hm, hn⟩, ho⟩ := h option
  cases hl : Transport.lookup fs option with
  | some v =>
    obtain ⟨name, hm, hv⟩ := List.exists_of_findSome?_eq_some hl
    rw [ho name hm v hv]
  | none =>
    have := List.findSome?_eq_none_iff.mp hl name hm
    rw [hn] at this
    cases this

/-- One spelling for each option, in any mixture and any order. -/
theorem holds_of_spelled (spell : TransportOption → String)
    (hs : ∀ option, spell option ∈ option.spellings)
    (hf : ∀ e, e ∈ fs ↔ ∃ option, e = (spell option, o.value option)) : fs.Holds o := by
  -- an entry under a spelling of an option is the one entry for this option
  have only : ∀ option : TransportOption, ∀ name ∈ option.spellings, ∀ v, fs.get? name = some v →
      v = o.value option := by
    intro option name hn v hv
    obtain ⟨option', he⟩ := (hf _).mp (mem_of_get? hv)
    cases he
    rw [TransportOption.eq_of_mem_spellings (hs option') hn]
  intro option
  refine ⟨⟨spell option, hs option, ?_⟩, only option⟩
  have hg := get?_ne_none ((hf _).mpr ⟨option, rfl⟩)
  obtain ⟨v, hv⟩ := Option.ne_none_iff_exists'.mp hg
  rw [hv, only option _ (hs option) v hv]

theorem toFields_holds (o : ConnectionOptions) : o.toFields.Holds o := by
  refine holds_of_spelled (fun option => option.spellings.headD "") (fun option => ?_)
    fun e => ⟨fun he => ?_, fun he => ?_⟩
  · cases option <;> decide
  · simp only [ConnectionOptions.toFields, List.mem_cons, List.not_mem_nil, or_false] at he
    rcases he with rfl | rfl | rfl | rfl | rfl | rfl
    · exact ⟨.clientName, rfl⟩
    · exact ⟨.connectionTimeout, rfl⟩
    · exact ⟨.database, rfl⟩
    · exact ⟨.tls, rfl⟩
    · exact ⟨.startTls, rfl⟩
    · exact ⟨.verifyPeer, rfl⟩
  · obtain ⟨option, rfl⟩ := he
    cases option <;> simp [ConnectionOptions.toFields, TransportOption.spellings,
      ConnectionOptions.value]

end Fields

/-! ## Mappings that say what settings say -/

namespace Fields

/-- A value is under one of some names, or under several, and no other value is under any. -/
def Has (fs : Fields) (names : List String) (v : Value) : Prop :=
  (∃ name ∈ names, fs.lookup name = some v) ∧ ∀ name ∈ names, ∀ w, fs.lookup name = some w → w = v

/-- The transport options of settings are there, each in whatever spelling. -/
structure SpellOut (fs : Fields) (c : ConnectionSettings) : Prop where
  clientName : fs.Has ["clientName", "client_name"] (.text c.clientName)
  timeout : fs.Has ["connectionTimeoutMs", "connectionTimeout", "connection_timeout_ms"]
    (.whole c.connectionTimeoutMs)
  database : fs.Has ["database"] (.whole c.database)
  tls : fs.Has ["sslEnabled", "ssl_enabled"] (.flag c.tls)
  startTls : fs.Has ["startTlsEnabled", "start_tls_enabled"] (.flag c.startTls)
  verifyPeer : fs.Has ["verifyPeerEnabled", "verify_peer_enabled"] (.flag c.verifyPeer)

/-- The record that is made of settings says what they say. -/
theorem spellOut_iff {fs : Fields} {c : ConnectionSettings} :
    fs.SpellOut c ↔ fs.Holds c.options := by
  constructor
  · intro h option
    cases option with
    | clientName => exact h.clientName
    | connectionTimeout => exact h.timeout
    | database => exact h.database
    | tls => exact h.tls
    | startTls => exact h.startTls
    | verifyPeer => exact h.verifyPeer
  · exact fun h => ⟨h .clientName, h .connectionTimeout, h .database, h .tls, h .startTls,
      h .verifyPeer⟩

end Fields

/-! ## What options come to -/

/-- Two forms of options say the same: every option has the same value. -/
def Options.Agree (o o' : Options) : Prop :=
  ∀ option, Transport.lookup o.toFields option = Transport.lookup o'.toFields option

theorem Fields.Holds.agree {fs : Fields} {o : ConnectionOptions} (h : fs.Holds o) :
    Options.Agree (.mapping fs) (.record o) := fun option =>
  (h.lookup option).trans ((toFields_holds o).lookup option).symm

section
variable {o o' : Options} (h : o.Agree o')
include h

theorem Transport.build_agree (host : String) (port : Int) (password : Value) :
    build host port password o = build host port password o' := by
  simp only [build, h _]

theorem Connector.transport_agree (address : ServerAddress) (password : Value) :
    transport address password o = transport address password o' := by
  simp only [transport, Transport.build_agree h]

theorem Connector.connect_agree (k : Connector) (topology : Topology)
    (addresses : List ServerAddress) (password : Value) :
    k.connect topology addresses password o = k.connect topology addresses password o' := by
  cases topology with
  | cluster => simp only [connect, cluster, transport_agree h]
  | standalone => cases addresses <;> simp only [connect, standalone, transport_agree h]

theorem Manager.init_agree (hosts : String) (password : Value) :
    init hosts password o = init hosts password o' := by
  simp only [init, establish, Connector.connect_agree h]

end

/-! ## Managers made from settings -/

namespace Manager

/-- A manager that is made from settings is the one that is made by hand with the settings' codec,
topology, pooling and pool limits, and initialized with their hosts, their password and a mapping
that holds their transport options in whatever spellings: the fault is the same, or else the
manager, and so are the events, the records of the log and all that the world will answer. What is
done with either of them later therefore goes the same way. -/
theorem ofSettings_eq_by_hand (s : Settings) (w : World) {fs : Fields}
    (h : fs.SpellOut s.connection) :
    ofSettings s w =
      let (m, w) := create
        { codec := .preset s.codec
          topology := if s.connection.cluster then .cluster else .standalone
          pooling := s.connection.pooling
          limits := s.pool } w
      let (result, site) :=
        (init s.connection.hosts (.text s.connection.password) (.mapping fs)).run ⟨m, w⟩
      (result.map fun _ => site.manager, site.world) := by
  rw [init_agree (Fields.spellOut_iff.mp h).agree]
  rfl

/-- Settings of a pool of cluster clients. -/
def twoSeeds : Settings where
  connection :=
    { hosts := "a:7000,b", password := "pw", clientName := "worker", connectionTimeoutMs := 1500
      database := 3, tls := true, verifyPeer := true, cluster := true, pooling := true }
  pool := { maxTotal := 4, minIdle := 2 }
  codec := .bytes

/-- Their transport options, in one spelling or the other. -/
def twoSeedsMixed : Fields :=
  [("verifyPeerEnabled", .flag true), ("database", .whole 3), ("client_name", .text "worker"),
   ("ssl_enabled", .flag true), ("connectionTimeoutMs", .whole 1500),
   ("start_tls_enabled", .flag false)]

/-- The spellings in which they are there. -/
def mixedSpelling : TransportOption → String
  | .clientName => "client_name"
  | .connectionTimeout => "connectionTimeoutMs"
  | .database => "database"
  | .tls => "ssl_enabled"
  | .startTls => "start_tls_enabled"
  | .verifyPeer => "verifyPeerEnabled"

theorem twoSeedsMixed_spellOut : twoSeedsMixed.SpellOut twoSeeds.connection := by
  refine Fields.spellOut_iff.mpr (Fields.holds_of_spelled mixedSpelling (fun option => ?_)
    fun e => ⟨fun he => ?_, fun he => ?_⟩)
  · cases option <;> decide
  · simp only [twoSeedsMixed, List.mem_cons, List.not_mem_nil, or_false] at he
    rcases he with rfl | rfl | rfl | rfl | rfl | rfl
    · exact ⟨.verifyPeer, rfl⟩
    · exact ⟨.database, rfl⟩
    · exact ⟨.clientName, rfl⟩
    · exact ⟨.tls, rfl⟩
    · exact ⟨.connectionTimeout, rfl⟩
    · exact ⟨.startTls, rfl⟩
  · obtain ⟨option, rfl⟩ := he
    cases option <;> simp [mixedSpelling, twoSeedsMixed, twoSeeds, ConnectionSettings.options,
      ConnectionOptions.value]

/-- The pool of either manager opens two clients in advance. -/
theorem ofSettings_eq_by_hand_of_twoSeeds :
    twoSeedsMixed.SpellOut twoSeeds.connection ∧
    (ofSettings twoSeeds {}).2.remote.opened = 2 ∧
    ofSettings twoSeeds ({} : World) =
      let (m, w) := create
        { codec := .preset .bytes, topology := .cluster, pooling := true
          limits := { maxTotal := 4, minIdle := 2 } } {}
      let (result, site) :=
        (init "a:7000,b" (.text "pw") (.mapping twoSeedsMixed)).run ⟨m, w⟩
      (result.map fun _ => site.manager, site.world) :=
  ⟨twoSeedsMixed_spellOut, by decide +kernel,
    ofSettings_eq_by_hand twoSeeds {} twoSeedsMixed_spellOut⟩

end Manager
end RedisGateway
