import Mathlib.Algebra.Field.Rat
import Mathlib.Tactic.NormNum
import Mathlib.Tactic.Ring
import RedisGateway.Proofs.Transport.Applying

/-!
What client keywords tell of the configuration that they were made of. No keyword is written twice,
so none hides another, and whatever a client acts upon can be read off them. What clients of both
topologies are told does not depend on the endpoint.
-/

namespace RedisGateway

/-- What the value of a keyword is compared by: a text, or an exact number. A flag counts as zero or
one, and a span of time as its number of seconds. -/
def Setting.reading : Setting → LooseText ⊕ Rat
  | .text s => .inl (.plain s)
  | .brokenText ns => .inl (.broken ns)
  | .number n => .inr n
  | .flag b => .inr (if b then 1 else 0)
  | .seconds d => .inr (d.microseconds / 1000000)

/-- Keywords that tell the same: each name has values of one reading on both sides, or none. -/
def Keywords.Alike (kws kws' : Keywords) : Prop :=
  ∀ name, (kws.lookup name).map Setting.reading = (kws'.lookup name).map Setting.reading

/-! ## Readings -/

theorem Setting.reading_ofText {s s' : LooseText} (h : (ofText s).reading = (ofText s').reading) :
    s = s' := by
  have reads : ∀ s : LooseText, (ofText s).reading = .inl s := fun s => by cases s <;> rfl
  rw [reads, reads] at h
  exact Sum.inl.inj h

theorem Setting.reading_text {s s' : String} (h : (text s).reading = (text s').reading) :
    s = s' :=
  LooseText.plain.inj (Sum.inl.inj h)

theorem Setting.reading_number {n n' : Int} (h : (number n).reading = (number n').reading) :
    n = n' :=
  Rat.intCast_injective (Sum.inr.inj h)

theorem Setting.reading_flag {b b' : Bool} (h : (flag b).reading = (flag b').reading) :
    b = b' := by
  have := Sum.inr.inj h
  cases b <;> cases b' <;> simp_all

theorem Setting.reading_seconds {d d' : Duration} (h : (seconds d).reading = (seconds d').reading) :
    d = d' := by
  obtain ⟨n⟩ := d
  obtain ⟨n'⟩ := d'
  have hn : (n : Rat) = n' := (div_left_inj' (by norm_num)).mp (Sum.inr.inj h)
  rw [Rat.intCast_injective hn]

/-- The seconds of a timeout of `n` milliseconds. -/
theorem Setting.reading_milliseconds (n : Int) :
    (seconds (.ofMilliseconds n)).reading = .inr (n / 1000) := by
  simp only [reading, Duration.ofMilliseconds, Sum.inr.injEq]
  push_cast
  ring

theorem map_reading_inj {α : Type} {make : α → Setting}
    (hmake : ∀ {a b : α}, (make a).reading = (make b).reading → a = b) {o o' : Option α}
    (h : (o.map make).map Setting.reading = (o'.map make).map Setting.reading) : o = o' := by
  cases o <;> cases o' <;> simp_all
  exact hmake h

namespace Transport

/-! ## Keywords of an endpoint -/

/-- The names under which the client of an endpoint is told where to connect. -/
def endpointNames : List String := ["host", "port", "db"]

/-- What stands in front of the shared keywords. -/
def endpoint (t : Transport) : Keywords :=
  [("host", .text t.host), ("port", .number t.port)] ++ keyword? "db" .number t.database

theorem endpointKeywords_eq (t : Transport) (c : Codec) :
    t.endpointKeywords c = t.endpoint ++ t.sharedKeywords c := rfl

theorem names_endpoint (t : Transport) : (t.endpoint.map (·.1)).Sublist endpointNames := by
  rw [endpoint, List.map_append, names_keyword?]
  split
  · exact .refl _
  · exact (List.Sublist.refl ["host", "port"]).append (List.nil_sublist ["db"])

theorem endpointNames_apart : (endpointNames ++ sharedNames).Nodup := by decide

/-- Each keyword of an endpoint is written once. -/
theorem nodup_endpointKeywords (t : Transport) (c : Codec) :
    ((t.endpointKeywords c).map (·.1)).Nodup := by
  rw [endpointKeywords_eq, List.map_append]
  exact endpointNames_apart.sublist ((names_endpoint t).append (names_sharedKeywords t c))

section
variable (t : Transport) (c : Codec)

theorem lookup_endpoint (key : String) : t.endpoint.lookup key =
    if key = "host" then some (.text t.host)
    else if key = "port" then some (.number t.port)
    else if key = "db" then t.database.map .number else none := by
  simp only [endpoint, List.cons_append, List.nil_append, lookup_cons_if, lookup_keyword?]

theorem lookup_host : (t.endpointKeywords c).lookup "host" = some (.text t.host) := by
  simp [endpointKeywords_eq, List.lookup_append, lookup_endpoint]

theorem lookup_port : (t.endpointKeywords c).lookup "port" = some (.number t.port) := by
  simp [endpointKeywords_eq, List.lookup_append, lookup_endpoint]

theorem lookup_db : (t.endpointKeywords c).lookup "db" = t.database.map .number := by
  simp [endpointKeywords_eq, List.lookup_append, lookup_endpoint, lookup_sharedKeywords,
    lookup_tlsKeywords, Codec.keywords, lookup_cons_if]

variable {t} {key : String}

theorem lookup_shared (h : key ∈ sharedNames) :
    (t.endpointKeywords c).lookup key = (t.sharedKeywords c).lookup key :=
  lookup_behind (names_endpoint t) endpointNames_apart h

end

/-! ## Configurations that mean the same -/

/-- Configurations that mean the same to clients of both topologies, whatever endpoint, database and
kind of encryption they ask for besides. Without encryption there is no peer to verify. -/
structure SharesWith (t t' : Transport) : Prop where
  password : t.password = t'.password
  clientName : t.clientName = t'.clientName
  timeout : t.timeout = t'.timeout
  tls : t.tls = t'.tls
  verifyPeer : t.tls = true → t.verifyPeer = t'.verifyPeer

/-- Configurations that mean the same to the client of an endpoint. -/
structure AgreesWith (t t' : Transport) : Prop extends t.SharesWith t' where
  host : t.host = t'.host
  port : t.port = t'.port
  database : t.database = t'.database

variable {t t' : Transport} {c : Codec}

theorem SharesWith.tlsKeywords (h : t.SharesWith t') : t.tlsKeywords = t'.tlsKeywords := by
  rw [Transport.tlsKeywords, Transport.tlsKeywords, ← h.tls]
  split
  · next htls => rw [h.verifyPeer htls]
  · rfl

/-- The shared keywords depend on nothing else. -/
theorem SharesWith.keywords (h : t.SharesWith t') (c : Codec) :
    t.sharedKeywords c = t'.sharedKeywords c := by
  rw [sharedKeywords, sharedKeywords, h.password, h.clientName, h.timeout, h.tlsKeywords]

theorem AgreesWith.keywords (h : t.AgreesWith t') (c : Codec) :
    t.endpointKeywords c = t'.endpointKeywords c := by
  rw [endpointKeywords_eq, endpointKeywords_eq, endpoint, endpoint, h.host, h.port, h.database,
    h.toSharesWith.keywords c]

/-- What the shared keywords tell of encryption. -/
theorem tls_of_alike (h : (t.sharedKeywords c).Alike (t'.sharedKeywords c)) :
    t.tls = t'.tls ∧ (t.tls = true → t.verifyPeer = t'.verifyPeer) := by
  have hssl := h "ssl"
  have hname := h "ssl_check_hostname"
  rw [lookup_tls (by decide), lookup_tls (by decide), lookup_tlsKeywords, lookup_tlsKeywords]
    at hssl hname
  simp only [↓reduceIte, String.reduceEq] at hssl hname
  -- with encryption on one side only, `ssl` is among the keywords of one side only
  cases htls : t.tls with
  | false => cases htls' : t'.tls <;> simp_all
  | true =>
    cases htls' : t'.tls with
    | false => simp [htls, htls'] at hssl
    | true =>
      refine ⟨rfl, fun _ => Setting.reading_flag ?_⟩
      simpa [htls, htls'] using hname

theorem sharesWith_of_alike (h : (t.sharedKeywords c).Alike (t'.sharedKeywords c)) :
    t.SharesWith t' := by
  obtain ⟨htls, hverify⟩ := tls_of_alike h
  have hpassword := h "password"
  have hname := h "client_name"
  have htimeout := h "socket_timeout"
  rw [lookup_password, lookup_password] at hpassword
  rw [lookup_clientName, lookup_clientName] at hname
  rw [lookup_timeout (by decide), lookup_timeout (by decide)] at htimeout
  exact {
    password := map_reading_inj Setting.reading_ofText hpassword
    clientName := map_reading_inj Setting.reading_ofText hname
    timeout := map_reading_inj Setting.reading_seconds htimeout
    tls := htls
    verifyPeer := hverify }

/-- The shared keywords can be read off those of the endpoint. -/
theorem alike_shared (h : (t.endpointKeywords c).Alike (t'.endpointKeywords c)) :
    (t.sharedKeywords c).Alike (t'.sharedKeywords c) := by
  intro name
  by_cases hn : name ∈ sharedNames
  · rw [← lookup_shared c hn, ← lookup_shared c hn]
    exact h name
  · -- the keywords of an endpoint may have the name, the shared ones never do
    have hnone : ∀ t : Transport, (t.sharedKeywords c).lookup name = none := by
      intro t
      refine List.lookup_eq_none_iff.mpr fun e he => bne_iff_ne.mpr fun heq => hn ?_
      exact heq ▸ (names_sharedKeywords t c).subset (List.mem_map_of_mem he)
    rw [hnone, hnone]

theorem alike_iff_agreesWith :
    (t.endpointKeywords c).Alike (t'.endpointKeywords c) ↔ t.AgreesWith t' := by
  constructor
  · intro h
    have hhost := h "host"
    have hport := h "port"
    have hdb := h "db"
    rw [lookup_host, lookup_host] at hhost
    rw [lookup_port, lookup_port] at hport
    rw [lookup_db, lookup_db] at hdb
    exact {
      toSharesWith := sharesWith_of_alike (alike_shared h)
      host := Setting.reading_text (Option.some.inj hhost)
      port := Setting.reading_number (Option.some.inj hport)
      database := map_reading_inj Setting.reading_number hdb }
  · intro h name
    rw [h.keywords c]

/-! ## Rendering -/

section
variable {host host' : String} {port port' : Int} {password password' : Value}
  {options options' : Options}

/-- Configurations of one password and of options that differ in the database and in the upgrade to
encryption at the most share everything else, wherever they are for. -/
theorem sharesWith_of_build (h : build host port password options = .ok t)
    (h' : build host' port' password options' = .ok t')
    (hgiven : ∀ o, o ≠ .database → o ≠ .startTls → ∀ v, options.Gives o v ↔ options'.Gives o v) :
    t.SharesWith t' := by
  obtain ⟨timeout, htimeout, rfl⟩ := build_ok h
  obtain ⟨timeout', htimeout', rfl⟩ := build_ok h'
  have hlookup : ∀ o, o ≠ .database → o ≠ .startTls →
      lookup options.toFields o = lookup options'.toFields o :=
    fun o hd hs => Options.lookup_congr (hgiven o hd hs)
  have hsame : timeout = timeout' := by
    rw [hlookup .connectionTimeout (by decide) (by decide), htimeout'] at htimeout
    exact (Except.ok.inj htimeout).symm
  exact {
    password := rfl
    clientName := congrArg textOf (hlookup .clientName (by decide) (by decide))
    timeout := hsame
    tls := congrArg flagOf (hlookup .tls (by decide) (by decide))
    verifyPeer := fun _ => congrArg flagOf (hlookup .verifyPeer (by decide) (by decide)) }

/-- Rendering loses nothing that a client acts upon. The keywords of an endpoint are all different;
a timeout is told as the number of seconds that was given in milliseconds; two configurations are
rendered alike exactly when they agree in endpoint, database, password, client name, timeout and
encryption, and with encryption in the check of the peer; and what clients of both topologies are
told is the same for every endpoint and database and with or without an upgrade to encryption. -/
theorem rendering_tells_all (h : build host port password options = .ok t)
    (h' : build host' port' password' options' = .ok t') (c : Codec) :
    ((t.endpointKeywords c).map (·.1)).Nodup ∧
      (∀ d, t.timeout = some d → ∃ n : Int, options.Gives .connectionTimeout (.whole n) ∧
        (Setting.seconds d).reading = .inr (n / 1000)) ∧
      ((t.endpointKeywords c).Alike (t'.endpointKeywords c) ↔ t.AgreesWith t') ∧
      (password = password' →
        (∀ o, o ≠ .database → o ≠ .startTls → ∀ v, options.Gives o v ↔ options'.Gives o v) →
          t.sharedKeywords c = t'.sharedKeywords c) := by
  refine ⟨nodup_endpointKeywords t c, fun d hd => ?_, alike_iff_agreesWith, ?_⟩
  · obtain ⟨n, hn, -, rfl⟩ := ((heeds_of_build h).timeout d).mp hd
    exact ⟨n, hn, Setting.reading_milliseconds n⟩
  · rintro rfl hgiven
    exact (sharesWith_of_build h h' hgiven).keywords c

end

/-- Options that ask for an upgrade to encryption and for a check of the peer. -/
def upgraded : Options :=
  .mapping [("clientName", .text "app"), ("connectionTimeoutMs", .whole 1500),
    ("startTlsEnabled", .flag true), ("verifyPeerEnabled", .flag true), ("database", .whole 0)]

/-- The same name, timeout and database in other spellings, and nothing else. -/
def unguarded : Options :=
  .mapping [("connection_timeout_ms", .whole 1500), ("client_name", .text "app"),
    ("database", .whole 0)]

/-- What the options without an upgrade make. -/
def unguardedTransport : Transport :=
  { host := "h", port := 1, database := some 0, timeout := some (.ofMilliseconds 1500)
    clientName := some (.plain "app"), password := some (.plain "pw") }

/-- Two configurations that are rendered alike although one of them asks for an upgrade to
encryption and for a check of the peer, neither of which means anything without encryption. -/
theorem rendering_tells_all_of_upgraded :
    let t := unguardedTransport
    let t' := { t with startTls := true, verifyPeer := true }
    build "h" 1 (.text "pw") unguarded = .ok t ∧ build "h" 1 (.text "pw") upgraded = .ok t' ∧
      ((t.endpointKeywords .default).map (·.1)).Nodup ∧
        (t.endpointKeywords .default).Alike (t'.endpointKeywords .default) := by
  intro t t'
  have ht : build "h" 1 (.text "pw") unguarded = .ok t := rfl
  have ht' : build "h" 1 (.text "pw") upgraded = .ok t' := rfl
  obtain ⟨hnodup, -, halike, -⟩ := rendering_tells_all ht ht' .default
  refine ⟨ht, ht', hnodup, halike.mpr ?_⟩
  exact ⟨⟨rfl, rfl, rfl, rfl, nofun⟩, rfl, rfl, rfl⟩

end Transport
end RedisGateway
