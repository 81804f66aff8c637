import RedisGateway.Proofs.Address.Grammar

/-!
Addresses as they are written in a specification. What is written is read back, and whatever was
read is an address of this kind, so the written form of a specification is a normal form.
-/

namespace RedisGateway.ServerAddress

/-- An address that can be written in a specification. -/
structure Plain (a : ServerAddress) : Prop where
  no_comma : ',' ∉ a.host.toList
  no_colon : ':' ∉ a.host.toList
  port : 0 ≤ a.port ∧ a.port ≤ 65535

instance (a : ServerAddress) : Decidable a.Plain :=
  decidable_of_iff
    (',' ∉ a.host.toList ∧ ':' ∉ a.host.toList ∧ 0 ≤ a.port ∧ a.port ≤ 65535)
    ⟨fun h => ⟨h.1, h.2.1, h.2.2⟩, fun h => ⟨h.no_comma, h.no_colon, h.port⟩⟩

variable {a : ServerAddress} {as : List ServerAddress} {spec : String}

/-! ## What is written -/

/-- The token of an address. -/
def token (a : ServerAddress) : List Char := a.render.toList

theorem Plain.token_eq (h : a.Plain) :
    ∃ n : Nat, n ≤ 65535 ∧ a.port = n ∧
      a.token = a.host.toList ++ ':' :: Nat.toDigits 10 n := by
  obtain ⟨n, hn⟩ := Int.eq_ofNat_of_zero_le h.port.1
  refine ⟨n, by have := h.port.2; omega, hn, ?_⟩
  simp [token, render, hn, Int.repr_eq_if]

theorem isPort_toDigits {n : Nat} (hn : n ≤ 65535) : IsPort (Nat.toDigits 10 n) where
  ne_nil := Nat.toDigits_ne_nil
  digits _ hc := Nat.isDigit_of_mem_toDigits (by decide) (by decide) hc
  in_range := by rwa [Nat.ofDigitChars_ten_toDigits]

theorem length_toDigits_port {n : Nat} (hn : n ≤ 65535) : (Nat.toDigits 10 n).length ≤ 5 := by
  rw [Nat.length_toDigits_le_iff (by decide) (by decide)]
  omega

theorem Plain.no_comma_token (h : a.Plain) : ',' ∉ a.token := by
  obtain ⟨n, hn, -, ht⟩ := h.token_eq
  rw [ht]
  intro hmem
  rcases List.mem_append.mp hmem with hmem | hmem
  · exact h.no_comma hmem
  · rcases List.mem_cons.mp hmem with hc | hmem
    · cases hc
    · exact absurd ((isPort_toDigits hn).digits _ hmem) (by decide)

theorem Plain.readable (h : a.Plain) : Accepted a.token ∧ ¬Overlong a.token := by
  obtain ⟨n, hn, -, ht⟩ := h.token_eq
  rw [ht, accepted_colon h.no_colon, overlong_colon h.no_colon]
  have hlen := length_toDigits_port hn
  exact ⟨isPort_toDigits hn, fun hlong => by omega⟩

theorem Plain.addressOf_token (h : a.Plain) : addressOf a.token = a := by
  obtain ⟨n, -, hp, ht⟩ := h.token_eq
  obtain ⟨host, port⟩ := a
  simp only at hp ht
  rw [addressOf, ht, hostText_colon h.no_colon, portText_colon h.no_colon]
  simp [Nat.ofDigitChars_ten_toDigits, hp]

/-- The tokens of what is written are those of the addresses. -/
theorem tokens_renderAll (hne : as ≠ []) (h : ∀ a ∈ as, a.Plain) :
    tokens (renderAll as) = as.map token := by
  have hjoined : (renderAll as).toList = [','].intercalate (as.map token) := by
    rw [renderAll, String.toList_intercalate, List.map_map]
    rfl
  rw [tokens, hjoined]
  refine List.splitOn_intercalate ',' (fun t ht => ?_) (by simpa using hne)
  obtain ⟨a, ha, rfl⟩ := List.mem_map.mp ht
  exact (h a ha).no_comma_token

theorem resolve_renderAll (hne : as ≠ []) (h : ∀ a ∈ as, a.Plain) :
    resolve (renderAll as) = .ok as := by
  have hread : ∀ t ∈ tokens (renderAll as), Accepted t ∧ ¬Overlong t := by
    intro t ht
    rw [tokens_renderAll hne h] at ht
    obtain ⟨a, ha, rfl⟩ := List.mem_map.mp ht
    exact (h a ha).readable
  rw [resolve_accepted hread, tokens_renderAll hne h, List.map_map]
  refine congrArg _ ((List.map_congr_left fun a ha => ?_).trans (List.map_id as))
  exact (h a ha).addressOf_token

/-! ## What is read -/

theorem mem_of_mem_hostText {c : Char} {t : List Char} (h : c ∈ hostText t) : c ∈ t :=
  (List.takeWhile_prefix _).subset h

theorem plain_addressOf {t : List Char} (hcomma : ',' ∉ t) (ha : Accepted t) :
    (addressOf t).Plain := by
  have hcolon : ':' ∉ hostText t := by
    intro hmem
    simpa using List.mem_takeWhile_imp hmem
  refine ⟨?_, ?_, ?_⟩
  · simpa [addressOf] using fun hmem => hcomma (mem_of_mem_hostText hmem)
  · simpa [addressOf] using hcolon
  · cases hp : portText? t with
    | none => simp [addressOf, hp]
    | some p =>
      have := (ha.port p hp).in_range
      simp only [addressOf, hp]
      omega

theorem plain_of_resolve (h : resolve spec = .ok as) : as ≠ [] ∧ ∀ a ∈ as, a.Plain := by
  obtain ⟨hread, rfl⟩ := readable_of_resolve h
  refine ⟨by simp [tokens], fun a ha => ?_⟩
  obtain ⟨t, ht, rfl⟩ := List.mem_map.mp ha
  exact plain_addressOf (Text.notMem_of_mem_splitOn ht) (hread t ht).1

/-- Ports that were read can be shown. -/
theorem isShowable_of_resolve (h : resolve spec = .ok as) :
    ∀ a ∈ as, Fault.isShowable a.port = true := by
  intro a ha
  have hp := (plain_of_resolve h).2 a ha
  refine Fault.isShowable_of_lt ?_
  have := hp.port
  omega

/-- What is read of a specification is read of its written form as well. -/
theorem resolve_renderAll_of_resolve (h : resolve spec = .ok as) :
    resolve (renderAll as) = .ok as :=
  resolve_renderAll (plain_of_resolve h).1 (plain_of_resolve h).2

/-- Addresses round-trip: what can be written is read back; what was read can be written, and is
read back; and two specifications are read alike exactly if the addresses are written alike. -/
theorem written_form_is_normal :
    (∀ as : List ServerAddress, as ≠ [] → (∀ a ∈ as, a.Plain) → resolve (renderAll as) = .ok as) ∧
    (∀ spec as, resolve spec = .ok as →
      as ≠ [] ∧ (∀ a ∈ as, a.Plain) ∧ resolve (renderAll as) = .ok as) ∧
    ∀ spec spec' as as', resolve spec = .ok as → resolve spec' = .ok as' →
      (as = as' ↔ renderAll as = renderAll as') := by
  refine ⟨fun as => resolve_renderAll, fun spec as h => ?_, fun spec spec' as as' h h' => ?_⟩
  · obtain ⟨hne, hall⟩ := plain_of_resolve h
    exact ⟨hne, hall, resolve_renderAll hne hall⟩
  · constructor
    · intro heq
      rw [heq]
    · intro heq
      have hr := resolve_renderAll_of_resolve h
      rw [heq, resolve_renderAll_of_resolve h'] at hr
      exact (Except.ok.inj hr).symm

/-- An address without a host and one with the greatest port are read back; and two specifications
that differ in a leading zero and in the port that is understood are written alike. -/
theorem written_form_is_normal_of_two_spellings :
    (∀ a ∈ [ServerAddress.mk "" 0, ⟨"a b", 65535⟩], a.Plain) ∧
    resolve (renderAll [⟨"", 0⟩, ⟨"a b", 65535⟩]) = .ok [⟨"", 0⟩, ⟨"a b", 65535⟩] ∧
    ∃ as as', resolve "h,g:007" = .ok as ∧ resolve "h:6379,g:7" = .ok as' ∧
      renderAll as = renderAll as' ∧ as = as' := by
  obtain ⟨hwritten, -, hnormal⟩ := written_form_is_normal
  have hplain : ∀ a ∈ [ServerAddress.mk "" 0, ⟨"a b", 65535⟩], a.Plain := by decide +kernel
  have h : resolve "h,g:007" = .ok [⟨"h", 6379⟩, ⟨"g", 7⟩] := rfl
  have h' : resolve "h:6379,g:7" = .ok [⟨"h", 6379⟩, ⟨"g", 7⟩] := rfl
  exact ⟨hplain, hwritten _ (by simp) hplain, _, _, h, h', rfl, (hnormal _ _ _ _ h h').mpr rfl⟩

end RedisGateway.ServerAddress
