import RedisGateway.Proofs.Settings.Given
import RedisGateway.Proofs.Yaml.Rereading
import RedisGateway.Settings.Document

/-!
Settings that are written and read again: they come back with their password masked if and only if
their numerals can be converted and two texts are read back from their lines
(`Settings.roundTrip_masked_iff`).
-/

namespace RedisGateway

open Yaml (Leaf Entry Said Part SaysLeaf SaysEntry)

/-! ## Lines -/

namespace Settings

/-- A text without carriage returns keeps its lines. -/
theorem unifyLines_writable {cs : List Char} (h : ∀ ch ∈ cs, Yaml.isWritable ch = true) :
    unifyLines cs = cs := by
  induction cs with
  | nil => rfl
  | cons c cs ih =>
    obtain ⟨hc, hcs⟩ := List.forall_mem_cons.mp h
    have hr : c ≠ '\r' := by
      rintro rfl
      exact absurd hc (by decide)
    rw [unifyLines, ih hcs]
    · exact fun _ heq _ => hr heq
    · exact fun heq => hr heq

end Settings

/-! ## Fields -/

/-- The values of scalars under their keys. -/
def fieldsOf (as : List (List Char × Said)) : Fields :=
  as.map fun a => (String.ofList a.1, a.2.worth)

theorem names_fieldsOf {indent : Nat} {ls : List (String × Leaf)} {as : List (List Char × Said)}
    (h : List.Forall₂ (SaysLeaf indent) ls as) :
    (fieldsOf as).map Prod.fst = ls.map Prod.fst := by
  induction h with
  | nil => rfl
  | cons hsays _ ih =>
    simp only [fieldsOf, List.map_cons] at ih ⊢
    rw [ih, hsays.1, String.ofList_toList]

namespace ConnectionSettings

theorem keys_leaves (s : ConnectionSettings) : s.leaves.map Prod.fst =
    ["client_name", "cluster", "connection_timeout_ms", "database", "hosts", "password", "pooling",
      "ssl_enabled", "start_tls_enabled", "verify_peer_enabled"] := rfl

/-- The settings are read from the values of their leaves. -/
theorem readGiven_leaves (s : ConnectionSettings) :
    readGiven (s.leaves.map fun l => (l.1, l.2.value)) = .ok s := rfl

end ConnectionSettings

namespace Pool.Limits

theorem keys_leaves (l : Limits) : l.leaves.map Prod.fst =
    ["block_when_exhausted", "max_idle", "max_total", "max_wait_ms", "min_idle", "test_on_borrow",
      "test_on_return"] := rfl

/-- Limits that can be met are read from the values of their leaves. -/
theorem readGiven_leaves {l : Limits} (h : l.Valid) :
    (readGiven (l.leaves.map fun e => (e.1, e.2.value))).bind consistent = .ok l := by
  obtain ⟨hmin, hnone⟩ := h
  have hcount : Settings.toCount (.whole l.minIdle) = .ok l.minIdle := by
    simp [Settings.toCount, Settings.toInteger, bind, Except.bind, Int.not_lt.mpr hmin]
  have hleast : minIdleField.readAs minIdleField.name
      (Fields.get? (l.leaves.map fun e => (e.1, e.2.value)) minIdleField.name) = .ok l.minIdle := by
    change (Settings.toCount (.whole l.minIdle)).mapError _ = _
    rw [hcount]
    rfl
  have hread : readGiven (l.leaves.map fun e => (e.1, e.2.value)) = .ok l := by
    simp only [readGiven, hleast]
    rfl
  rw [hread, Except.bind, consistent, hnone]

end Pool.Limits

namespace Settings

variable {s : Settings}

theorem keyed_of_keys {ls : List (String × Leaf)} {keys : List String}
    (hls : ls.map Prod.fst = keys) (hkeys : ∀ k ∈ keys, Yaml.isKeyText k.toList = true) :
    ∀ l ∈ ls, Yaml.isKeyText l.1.toList = true := fun l hl =>
  hkeys l.1 (hls ▸ List.mem_map_of_mem hl)

theorem keyed_entries (s : Settings) : ∀ e ∈ s.entries, Yaml.IsKeyed e := by
  have hconnection := keyed_of_keys s.connection.masked.keys_leaves (by decide)
  have hpool := keyed_of_keys s.pool.keys_leaves (by decide)
  intro e he
  simp only [entries, List.mem_cons, List.not_mem_nil, or_false] at he
  rcases he with rfl | rfl | rfl
  · exact (by decide : Yaml.isKeyText "codec".toList = true)
  · exact ⟨by decide, by simp [ConnectionSettings.leaves], hconnection⟩
  · exact ⟨by decide, by simp [Pool.Limits.leaves], hpool⟩

theorem textKeys_entries (s : Settings) :
    ∀ k ∈ s.entries.flatMap Yaml.entryKeys, Yaml.IsTextKey k.toList := by
  have hkeys : s.entries.flatMap Yaml.entryKeys =
      (default : Settings).entries.flatMap Yaml.entryKeys := rfl
  rw [hkeys]
  decide +kernel

/-! ## Documents -/

theorem forM_convert {ns : List Int} : ns.forM convert = .ok () ↔
    ∀ n ∈ ns, (toString n.natAbs).length ≤ Fault.maxDigits := by
  induction ns with
  | nil => simp [pure, Except.pure]
  | cons n ns ih =>
    rw [List.forall_mem_cons, ← ih]
    change (convert n).bind (fun _ => ns.forM convert) = .ok () ↔ _
    by_cases hn : Fault.maxDigits < (toString n.natAbs).length
    · have hfail : convert n = .error (.numeralTooLong (toString n.natAbs).length) := if_pos hn
      rw [hfail]
      exact ⟨nofun, fun h => absurd h.1 (Nat.not_le.mpr hn)⟩
    · have hpass : convert n = .ok () := if_neg hn
      rw [hpass]
      exact ⟨fun h => ⟨Nat.not_lt.mp hn, h⟩, fun h => h.2⟩

/-- The document of the settings, if it can be written. -/
theorem toDocument_ok {d : String} : s.toDocument = .ok d ↔
    (∀ n ∈ s.integers, (toString n.natAbs).length ≤ Fault.maxDigits) ∧
      d = Yaml.Writer.write s.entries := by
  rw [← forM_convert, toDocument]
  cases hconvert : s.integers.forM convert with
  | error f => simp [bind, Except.bind]
  | ok u => simp [bind, Except.bind, pure, Except.pure, eq_comm]

/-- What is read of a record of fields. -/
theorem givenBy_fields {g : AllGiven} {d : String} (hd : ∀ ch ∈ d.toList, Yaml.isWritable ch = true)
    (h : Yaml.read d = .ok (.ofFields g.fields)) :
    givenBy d = .ok g.fields.entries := by
  rw [givenBy, unifyLines_writable hd, String.ofList_toList, h]
  rfl

theorem ofDocument_fields {g : AllGiven} {d : String} {env : Environment}
    (hd : ∀ ch ∈ d.toList, Yaml.isWritable ch = true)
    (h : Yaml.read d = .ok (.ofFields g.fields)) (hg : g.Full) (henv : env.Without "redis_") :
    ofDocument d env = g.read.toFault := by
  rw [ofDocument, givenBy_fields hd h]
  simp only [bind, Except.bind]
  rw [checkRecord_fields, check_given hg henv]

/-! ## What was written -/

/-- The record of what is given by the settings' entries. -/
theorem recordOf_given {g : AllGiven} (hconnection : (g.connection.map Prod.fst).Nodup)
    (hpool : (g.pool.map Prod.fst).Nodup) : Value.recordOf g.entries = .ofFields g.fields := by
  rw [AllGiven.entries, Value.recordOf_fields hconnection, Value.recordOf_fields hpool]
  exact @Value.recordOf_fields g.fields (by simp [AllGiven.fields])

/-- Fields under the names of a group are all given. -/
theorem complete_of_keys {fs : Fields} {keys names : List String} (hfs : fs.map Prod.fst = keys)
    (hnames : ∀ n ∈ names, n ∈ keys) : Complete names fs := by
  intro n hn
  have hmem := hnames n hn
  rw [← hfs] at hmem
  obtain ⟨p, hp, rfl⟩ := List.mem_map.mp hmem
  rw [Fields.get?, Option.isSome_iff_ne_none, ne_eq, List.lookup_eq_none_iff]
  exact fun h => absurd (h p hp) (by simp)

theorem plain_of_keys {fs : Fields} {keys names : List String} (hfs : fs.map Prod.fst = keys)
    (hkeys : ∀ k ∈ keys, k ∈ names)
    (hletters : ∀ n ∈ names, n.toList.all nameLetters.contains = true)
    (hfree : ∀ n ∈ names, n ∉ Lookup.keywords) : Plain names fs :=
  ⟨fun p hp => hkeys p.1 (hfs ▸ List.mem_map_of_mem hp), hletters, hfree⟩

/-- Fields under the keys of settings are all that is needed. -/
theorem full_of_keys {g : AllGiven}
    (hconnection : g.connection.map Prod.fst = s.connection.masked.leaves.map Prod.fst)
    (hpool : g.pool.map Prod.fst = s.pool.leaves.map Prod.fst) : g.Full where
  connection := by
    rw [ConnectionSettings.keys_leaves] at hconnection
    exact plain_of_keys hconnection (by decide) (by decide) (by decide)
  connectionAll := by
    rw [ConnectionSettings.keys_leaves] at hconnection
    exact complete_of_keys hconnection (by decide)
  pool := by
    rw [Pool.Limits.keys_leaves] at hpool
    exact plain_of_keys hpool (by decide) (by decide) (by decide)
  poolAll := by
    rw [Pool.Limits.keys_leaves] at hpool
    exact complete_of_keys hpool (by decide)

/-- The document of settings is read as fields: each from the line that was written of it. -/
theorem ofDocument_entries {g : AllGiven} {env : Environment} (henv : env.Without "redis_")
    (hconnection : g.connection.map Prod.fst = s.connection.masked.leaves.map Prod.fst)
    (hpool : g.pool.map Prod.fst = s.pool.leaves.map Prod.fst)
    (h : Yaml.read (Yaml.Writer.write s.entries) = .ok (.recordOf g.entries)) :
    ofDocument (Yaml.Writer.write s.entries) env = g.read.toFault := by
  have hrecord := @recordOf_given g
    (by rw [hconnection, ConnectionSettings.keys_leaves]; decide)
    (by rw [hpool, Pool.Limits.keys_leaves]; decide)
  rw [hrecord] at h
  exact ofDocument_fields (Yaml.write_writable s.keyed_entries) h (full_of_keys hconnection hpool)
    henv

/-! ## Reading back -/

end Settings

namespace ConnectionSettings

/-- Whether the text of a field is read back from its line. -/
def rereads (f : Settings.FieldRule String) (t : String) : Bool :=
  Yaml.rereads 4 (Yaml.Writer.putKey 2 f.name) t.toList

/-- Only the password is masked. -/
theorem masked_eq (s : ConnectionSettings) :
    s.masked = { s with password := s.masked.password } := by
  rw [masked]
  split <;> rfl

theorem rereads_password (s : ConnectionSettings) :
    rereads passwordField s.masked.password = true := by
  rw [masked]
  split
  · next h =>
    rw [String.isEmpty_iff.mp h]
    decide +kernel
  · exact (by decide +kernel : rereads passwordField Settings.mask = true)

end ConnectionSettings

namespace Settings

variable {s : Settings}

/-- The settings as they are written: with a mask in place of a password. -/
def masked (s : Settings) : Settings := { s with connection := s.connection.masked }

/-- The numerals of all integers can be converted, and the texts of both fields are read back. -/
structure Rereads (s : Settings) : Prop where
  integers : ∀ n ∈ s.integers, (toString n.natAbs).length ≤ Fault.maxDigits
  hosts : ConnectionSettings.rereads ConnectionSettings.hostsField s.connection.hosts = true
  clientName :
    ConnectionSettings.rereads ConnectionSettings.clientNameField s.connection.clientName = true

theorem rereads_codec (t : CodecType) :
    Yaml.rereads 2 (Yaml.Writer.putKey 0 "codec") t.name.toList = true := by
  cases t <;> decide +kernel

theorem rereads_entries (h : s.Rereads) : ∀ e ∈ s.entries, Yaml.EntryRereads e := by
  obtain ⟨hintegers, hhosts, hname⟩ := h
  have hpassword := s.connection.rereads_password
  simp only [integers, List.forall_mem_cons] at hintegers
  obtain ⟨htimeout, hdatabase, hmost, hidle, hleast, hwait, -⟩ := hintegers
  have hconnection : ∀ l ∈ s.connection.masked.leaves,
      l.2.Rereads 4 (Yaml.Writer.putKey 2 l.1) := by
    rw [ConnectionSettings.masked_eq]
    simp only [ConnectionSettings.leaves, List.forall_mem_cons]
    exact ⟨hname, trivial, htimeout, hdatabase, hhosts, hpassword, trivial, trivial, trivial,
      trivial, nofun⟩
  have hpool : ∀ l ∈ s.pool.leaves, l.2.Rereads 4 (Yaml.Writer.putKey 2 l.1) := by
    simp only [Pool.Limits.leaves, List.forall_mem_cons]
    exact ⟨trivial, hidle, hmost, hwait, hleast, trivial, trivial, nofun⟩
  simp only [entries, List.forall_mem_cons]
  exact ⟨rereads_codec s.codec, hconnection, hpool, nofun⟩

/-- What is given where everything is read back. -/
def given (s : Settings) : AllGiven where
  connection := s.connection.masked.leaves.map fun l => (l.1, l.2.value)
  pool := s.pool.leaves.map fun l => (l.1, l.2.value)
  codec := .text s.codec.name

theorem read_given_ok (h : s.pool.Valid) : s.given.read = .ok s.masked := by
  have hcodec : codecField.readAs codecField.name (some (.text s.codec.name)) = .ok s.codec := by
    cases s.codec <;> rfl
  rw [AllGiven.read, given]
  simp only [ConnectionSettings.readGiven_leaves, Pool.Limits.readGiven_leaves h, hcodec]
  rfl

/-- Settings that are read back are the ones that were written. -/
theorem ofDocument_rereads (hpool : s.pool.Valid) (h : s.Rereads) {env : Environment}
    (henv : env.Without "redis_") :
    ofDocument (Yaml.Writer.write s.entries) env = .ok s.masked := by
  have hread := Yaml.read_write s.keyed_entries (by simp [entries]) s.textKeys_entries
    (rereads_entries h)
  have hentries : s.entries.map Yaml.entryValue = s.given.entries := rfl
  rw [hentries] at hread
  rw [ofDocument_entries henv (by simp [given]) (by simp [given]) hread, read_given_ok hpool]
  rfl

/-! ## What is lost -/

/-- The scalars that stand in the document of settings. -/
theorem entries_said {bs : List (List Char × Part)} (h : List.Forall₂ SaysEntry s.entries bs) :
    ∃ x as ps, bs = [("codec".toList, .scalar x), ("connection".toList, .group as),
        ("pool".toList, .group ps)] ∧
      List.Forall₂ (SaysLeaf 2) s.connection.masked.leaves as ∧
        List.Forall₂ (SaysLeaf 2) s.pool.leaves ps := by
  rw [entries] at h
  obtain _ | ⟨hcodec, _ | ⟨hconnection, _ | ⟨hpool, ⟨⟩⟩⟩⟩ := h
  cases hcodec with
  | leaf hx =>
    cases hconnection with
    | group has =>
      cases hpool with
      | group hps => exact ⟨_, _, _, rfl, has, hps⟩

/-- The value that is given for a leaf is that of a scalar that was written for it. -/
theorem get_fieldsOf {indent : Nat} {ls : List (String × Leaf)} {as : List (List Char × Said)}
    (h : List.Forall₂ (SaysLeaf indent) ls as) (hdistinct : (ls.map Prod.fst).Nodup)
    {l : String × Leaf} (hl : l ∈ ls) :
    ∃ a ∈ as, SaysLeaf indent l a ∧ (fieldsOf as).get? l.1 = some a.2.worth := by
  induction h with
  | nil => exact nomatch hl
  | @cons l' a ls as hsays _ ih =>
    obtain ⟨hnew, hdistinct⟩ := List.nodup_cons.mp hdistinct
    have hfirst : fieldsOf (a :: as) = (l'.1, a.2.worth) :: fieldsOf as := by
      rw [fieldsOf, List.map_cons, hsays.1, String.ofList_toList]
      rfl
    rcases List.mem_cons.mp hl with rfl | hl
    · exact ⟨a, List.mem_cons_self, hsays, by simp [hfirst, Fields.get?]⟩
    · obtain ⟨b, hb, hsaid, hget⟩ := ih hdistinct hl
      have hne : (l.1 == l'.1) = false := by
        rw [beq_eq_false_iff_ne]
        exact fun heq => hnew (heq ▸ List.mem_map_of_mem hl)
      refine ⟨b, List.mem_cons_of_mem _ hb, hsaid, ?_⟩
      rw [hfirst, Fields.get?, List.lookup_cons, hne]
      exact hget

theorem readAs_ok {α : Type} {f : FieldRule α} {label : String} {v : Value} {a : α}
    (h : f.readAs label (some v) = .ok a) : f.read v = .ok a := by
  rw [FieldRule.readAs] at h
  cases hread : f.read v with
  | error p =>
    rw [hread] at h
    cases h
  | ok b =>
    rw [hread] at h
    cases h
    rfl

/-- The texts among settings that are read are those of their values. -/
theorem texts_of_readGiven {fs : Fields} {c : ConnectionSettings}
    (h : ConnectionSettings.readGiven fs = .ok c) :
    ConnectionSettings.hostsField.readAs "hosts" (fs.get? "hosts") = .ok c.hosts ∧
      ConnectionSettings.clientNameField.readAs "client_name" (fs.get? "client_name") =
        .ok c.clientName := by
  obtain ⟨_, _, hcluster, -, rfl⟩ := app_ok h
  obtain ⟨_, _, hverify, -, rfl⟩ := app_ok hcluster
  obtain ⟨_, _, hstart, -, rfl⟩ := app_ok hverify
  obtain ⟨_, _, htls, -, rfl⟩ := app_ok hstart
  obtain ⟨_, _, hdatabase, -, rfl⟩ := app_ok htls
  obtain ⟨_, _, htimeout, -, rfl⟩ := app_ok hdatabase
  obtain ⟨_, _, hnamed, -, rfl⟩ := app_ok htimeout
  obtain ⟨_, name, hpassword, hname, rfl⟩ := app_ok hnamed
  obtain ⟨_, _, hfirst, -, rfl⟩ := app_ok hpassword
  obtain ⟨hosts, hhosts, rfl⟩ := map_ok hfirst
  exact ⟨hhosts, hname⟩

theorem connection_of_read {g : AllGiven} {t : Settings} (h : g.read = .ok t) :
    ConnectionSettings.readGiven g.connection = .ok t.connection := by
  obtain ⟨_, _, hpool, -, rfl⟩ := app_ok h
  obtain ⟨_, _, hconnection, -, rfl⟩ := app_ok hpool
  obtain ⟨c, hread', rfl⟩ := map_ok hconnection
  exact ok_of_under hread'

/-- A text that is read from the scalar of its leaf is read back. -/
theorem rereads_of_fields {ls : List (String × Leaf)} {as : List (List Char × Said)}
    (h : List.Forall₂ (SaysLeaf 2) ls as) (hdistinct : (ls.map Prod.fst).Nodup)
    (hworth : ∀ a ∈ as, a.2.value = .ok a.2.worth) {f : FieldRule String} (hf : f.read = toText)
    {t : String} (hl : (f.name, .text t) ∈ ls)
    (hread : f.readAs f.name ((fieldsOf as).get? f.name) = .ok t) :
    ConnectionSettings.rereads f t = true := by
  obtain ⟨a, ha, hsays, hget⟩ := get_fieldsOf h hdistinct hl
  rw [hget] at hread
  have htext := readAs_ok hread
  rw [hf] at htext
  exact Yaml.rereads_of_text hsays.2 (hworth a ha) htext

/-- The texts of settings that are read from the scalars of a document are read back. -/
theorem rereads_of_read {as : List (List Char × Said)} {g : AllGiven}
    (h : List.Forall₂ (SaysLeaf 2) s.connection.masked.leaves as)
    (hworth : ∀ a ∈ as, a.2.value = .ok a.2.worth) (hg : g.connection = fieldsOf as)
    (hread : g.read = .ok s.masked) :
    ConnectionSettings.rereads ConnectionSettings.hostsField s.connection.hosts = true ∧
      ConnectionSettings.rereads ConnectionSettings.clientNameField s.connection.clientName =
        true := by
  have hdistinct : (s.connection.masked.leaves.map Prod.fst).Nodup := by
    rw [ConnectionSettings.keys_leaves]
    decide
  obtain ⟨hhosts, hname⟩ := texts_of_readGiven (connection_of_read hread)
  have hself := s.connection.masked_eq
  rw [masked, hself, hg] at hhosts hname
  constructor
  · refine rereads_of_fields h hdistinct hworth rfl ?_ hhosts
    rw [hself]
    simp [ConnectionSettings.leaves]
  · refine rereads_of_fields h hdistinct hworth rfl ?_ hname
    rw [hself]
    simp [ConnectionSettings.leaves]

/-- The texts of settings that are read back are those of their lines. -/
theorem rereads_of_ofDocument {env : Environment} (henv : env.Without "redis_")
    (h : ofDocument (Yaml.Writer.write s.entries) env = .ok s.masked) :
    ConnectionSettings.rereads ConnectionSettings.hostsField s.connection.hosts = true ∧
      ConnectionSettings.rereads ConnectionSettings.clientNameField s.connection.clientName =
        true := by
  obtain ⟨bs, hsays, hread⟩ := Yaml.read_write_entries s.keyed_entries (by simp [entries])
    s.textKeys_entries
  obtain ⟨x, as, ps, rfl, has, hps⟩ := entries_said hsays
  cases hv : Yaml.read (Yaml.Writer.write s.entries) with
  | error f =>
    rw [ofDocument, givenBy, unifyLines_writable (Yaml.write_writable s.keyed_entries),
      String.ofList_toList, hv] at h
    cases h
  | ok v =>
    obtain ⟨hworth, rfl⟩ := (hread v).mp hv
    set g : AllGiven := ⟨fieldsOf as, fieldsOf ps, x.worth⟩ with hg
    have hrecord : Yaml.recordWorth [("codec".toList, .scalar x), ("connection".toList, .group as),
        ("pool".toList, .group ps)] = .recordOf g.entries := by
      simp [Yaml.recordWorth, Part.worth, Yaml.leavesEntries, hg, AllGiven.entries, fieldsOf,
        Fields.entries, Function.comp_def]
    rw [hrecord] at hv
    rw [ofDocument_entries henv (names_fieldsOf has) (names_fieldsOf hps) hv] at h
    have hvalues : ∀ a ∈ as, a.2.value = .ok a.2.worth := fun a ha =>
      hworth a.2 (by simpa [Part.scalars] using .inr (.inl ⟨a.1, ha⟩))
    exact rereads_of_read has hvalues rfl (ok_of_toFault h)

/-! ## The round trip -/

/-- The settings that are read from the document of settings, at a place where nothing else is. -/
def roundTrip (s : Settings) (env : Environment) : Except Fault Settings := do
  ofPlace (.document (← s.toDocument)) env

theorem roundTrip_document {s : Settings} {d : String} (h : s.toDocument = .ok d)
    (env : Environment) : s.roundTrip env = ofDocument d env := by
  rw [roundTrip, h]
  rfl

/-- In an environment without variables of the settings, settings with limits that can be met (as
all settings have that were read, `valid_of_resolve`) are read back from their document, but for a
password that is not empty, if and only if the numerals of all integers can be converted and the
texts of `hosts` and `client_name` are read back from their lines. -/
theorem roundTrip_masked_iff {s : Settings} (hpool : s.pool.Valid) {env : Environment}
    (henv : env.Without "redis_") : s.roundTrip env = .ok s.masked ↔ s.Rereads := by
  constructor
  · intro h
    cases hdocument : s.toDocument with
    | error f =>
      rw [roundTrip, hdocument] at h
      cases h
    | ok d =>
      obtain ⟨hintegers, rfl⟩ := toDocument_ok.mp hdocument
      rw [roundTrip_document hdocument] at h
      obtain ⟨hhosts, hname⟩ := rereads_of_ofDocument henv h
      exact ⟨hintegers, hhosts, hname⟩
  · intro h
    have hdocument := toDocument_ok.mpr ⟨h.integers, rfl⟩
    rw [roundTrip_document hdocument]
    exact ofDocument_rereads hpool h henv

/-- Settings for two servers, with a password and a name in quotes. -/
def ofTwoServers : Settings :=
  { connection := { hosts := "a:6379,b:6379", password := "secret", clientName := "it's: mine" } }

theorem roundTrip_masked_iff_of_twoServers :
    ofTwoServers.pool.Valid ∧ Environment.Without "redis_" { entries := [("PATH", "/bin")] } ∧
      ofTwoServers.Rereads ∧ ofTwoServers.roundTrip { entries := [("PATH", "/bin")] } =
        .ok { connection :=
                { hosts := "a:6379,b:6379", password := "***", clientName := "it's: mine" } } := by
  have hpool : ofTwoServers.pool.Valid := by decide
  have henv : Environment.Without "redis_" { entries := [("PATH", "/bin")] } := by
    simp only [Environment.Without, List.forall_mem_singleton]
    decide
  have hrereads : ofTwoServers.Rereads := ⟨by decide +kernel, by decide +kernel, by decide +kernel⟩
  exact ⟨hpool, henv, hrereads, (roundTrip_masked_iff hpool henv).mpr hrereads⟩

/-- Settings for one server whose name is a word for true. -/
def ofYes : Settings := { connection := { hosts := "yes" } }

/-- The name is written without quotes, and what is read there is no text. -/
theorem hosts_yes_lost :
    ofYes.pool.Valid ∧ Environment.Without "redis_" {} ∧ ofYes.roundTrip {} ≠ .ok ofYes.masked := by
  have henv : Environment.Without "redis_" {} := fun p hp => nomatch hp
  refine ⟨by decide, henv, fun h => ?_⟩
  have hdocument := (toDocument_ok (s := ofYes)).mpr ⟨by decide +kernel, rfl⟩
  rw [roundTrip_document hdocument] at h
  have hrereads := (rereads_of_ofDocument henv h).1
  exact absurd hrereads (by decide +kernel)

end Settings
end RedisGateway
