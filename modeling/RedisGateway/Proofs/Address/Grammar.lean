import Mathlib.Data.List.Find
import Mathlib.Data.List.TakeWhile
import RedisGateway.Address

/-!
The grammar of a specification of servers. Tokens stand between commas; a token is a host, or a host
and behind one colon a port. `resolve_reads_grammar` says what is read of a specification, and which
token is reported where it breaks the grammar.
-/

namespace RedisGateway

namespace Text

variable {α : Type} [DecidableEq α]

theorem split_eq_splitOn (sep : α) (cs : List α) : split sep cs = cs.splitOn sep := by
  induction cs with
  | nil => rfl
  | cons c cs ih =>
    rw [split, List.splitOn_cons_eq_if_modifyHead, ih]
    by_cases hc : c = sep
    · simp [hc]
    · obtain ⟨p, ps, hps⟩ := List.exists_cons_of_ne_nil (List.splitOn_ne_nil sep cs)
      simp [hc, hps]

theorem length_splitOn (sep : α) (cs : List α) : (cs.splitOn sep).length = cs.count sep + 1 := by
  induction cs with
  | nil => rfl
  | cons c cs ih =>
    rw [List.splitOn_cons_eq_if_modifyHead]
    by_cases hc : c = sep <;> simp [hc, ih]

theorem notMem_of_mem_splitOn {sep : α} {cs p : List α} (hp : p ∈ cs.splitOn sep) : sep ∉ p := by
  induction cs generalizing p with
  | nil => simp_all
  | cons c cs ih =>
    obtain ⟨q, qs, hq⟩ := List.exists_cons_of_ne_nil (List.splitOn_ne_nil sep cs)
    rw [List.splitOn_cons_eq_if_modifyHead, hq] at hp
    rw [hq] at ih
    by_cases hc : c = sep
    · simp only [hc, beq_self_eq_true, if_true, List.mem_cons] at hp
      rcases hp with rfl | hp
      · simp
      · exact ih (List.mem_cons.mpr hp)
    · simp only [beq_iff_eq, if_neg hc, List.modifyHead_cons, List.mem_cons] at hp
      rcases hp with rfl | hp
      · intro hmem
        rcases List.mem_cons.mp hmem with rfl | hmem
        · exact hc rfl
        · exact ih List.mem_cons_self hmem
      · exact ih (List.mem_cons_of_mem q hp)

theorem isDigit_eq (c : Char) : isDigit c = c.isDigit := rfl

theorem isNumeral_iff {cs : List Char} :
    isNumeral cs = true ↔ cs ≠ [] ∧ ∀ c ∈ cs, c.isDigit = true := by
  simp [isNumeral, isDigit_eq]

theorem natOfDigits_eq (cs : List Char) : natOfDigits cs = Nat.ofDigitChars 10 cs 0 := by
  simp only [natOfDigits, digitValue, Nat.ofDigitChars_eq_foldl, Nat.mul_comm]
  rfl

end Text

/-- A fault that reports a token as an invalid address. -/
def Fault.ReportsAddress (f : Fault) (token : List Char) : Prop :=
  f.family? = some .invalidAddress ∧ f.detail? = some ("address", .text (String.ofList token))

namespace ServerAddress

/-! ## Tokens -/

/-- The tokens of a specification: what stands between its commas. -/
def tokens (spec : String) : List (List Char) := spec.toList.splitOn ','

/-- The text of a token in front of its first colon, or all of it. -/
def hostText (t : List Char) : List Char := t.takeWhile (· ≠ ':')

/-- The text of a token behind its first colon, if it has one. -/
def portText? (t : List Char) : Option (List Char) := (t.dropWhile (· ≠ ':')).tail?

/-- A port is a decimal numeral up to 65535. -/
structure IsPort (p : List Char) : Prop where
  ne_nil : p ≠ []
  digits : ∀ c ∈ p, c.isDigit = true
  in_range : Nat.ofDigitChars 10 p 0 ≤ 65535

/-- A token that the grammar accepts. -/
structure Accepted (t : List Char) : Prop where
  colons : t.count ':' ≤ 1
  port : ∀ p, portText? t = some p → IsPort p

/-- A token whose port is a numeral, but one with more digits than are ever converted. -/
structure Overlong (t : List Char) : Prop where
  colons : t.count ':' ≤ 1
  port : ∃ p, portText? t = some p ∧ (∀ c ∈ p, c.isDigit = true) ∧ 4300 < p.length

/-- The address that a token stands for. -/
def addressOf (t : List Char) : ServerAddress where
  host := String.ofList (hostText t)
  port := match portText? t with
    | some p => (Nat.ofDigitChars 10 p 0 : Nat)
    | none => 6379

variable {t h p : List Char}

theorem isPort_iff : IsPort p ↔
    p ≠ [] ∧ p.all Char.isDigit = true ∧ Nat.ofDigitChars 10 p 0 ≤ 65535 := by
  rw [List.all_eq_true]
  constructor
  · rintro ⟨hne, hd, hr⟩
    exact ⟨hne, hd, hr⟩
  · rintro ⟨hne, hd, hr⟩
    exact ⟨hne, hd, hr⟩

instance (p : List Char) : Decidable (IsPort p) := decidable_of_iff' _ isPort_iff

theorem accepted_iff : Accepted t ↔
    t.count ':' ≤ 1 ∧ (portText? t).all (fun p => decide (IsPort p)) = true := by
  simp only [Option.all_eq_true, decide_eq_true_eq]
  constructor
  · rintro ⟨hc, hp⟩
    exact ⟨hc, hp⟩
  · rintro ⟨hc, hp⟩
    exact ⟨hc, hp⟩

instance (t : List Char) : Decidable (Accepted t) := decidable_of_iff' _ accepted_iff

theorem overlong_iff : Overlong t ↔ t.count ':' ≤ 1 ∧
    (portText? t).any (fun p => p.all Char.isDigit && decide (4300 < p.length)) = true := by
  simp only [Option.any_eq_true, Bool.and_eq_true, List.all_eq_true, decide_eq_true_eq]
  constructor
  · rintro ⟨hc, hp⟩
    exact ⟨hc, hp⟩
  · rintro ⟨hc, hp⟩
    exact ⟨hc, hp⟩

instance (t : List Char) : Decidable (Overlong t) := decidable_of_iff' _ overlong_iff

/-- A token has no colon, or its host ends at the first one. -/
theorem token_cases (t : List Char) : ':' ∉ t ∨ ∃ h p, ':' ∉ h ∧ t = h ++ ':' :: p := by
  by_cases ht : ':' ∈ t
  · obtain ⟨h, p, ht, hh⟩ := List.eq_append_cons_of_mem ht
    exact .inr ⟨h, p, hh, ht⟩
  · exact .inl ht

theorem ne_colon_of_notMem (hh : ':' ∉ h) : ∀ c ∈ h, decide (c ≠ ':') = true := by
  intro c hc
  exact decide_eq_true fun heq => hh (heq ▸ hc)

theorem hostText_bare (ht : ':' ∉ t) : hostText t = t :=
  List.takeWhile_eq_self_iff.mpr (ne_colon_of_notMem ht)

theorem portText_bare (ht : ':' ∉ t) : portText? t = none := by
  rw [portText?, List.dropWhile_eq_nil_iff.mpr (ne_colon_of_notMem ht)]
  rfl

theorem hostText_colon (hh : ':' ∉ h) (p : List Char) : hostText (h ++ ':' :: p) = h := by
  rw [hostText, List.takeWhile_append_of_pos (ne_colon_of_notMem hh)]
  simp

theorem portText_colon (hh : ':' ∉ h) (p : List Char) : portText? (h ++ ':' :: p) = some p := by
  rw [portText?, List.dropWhile_append_of_pos (ne_colon_of_notMem hh)]
  simp

theorem count_colon (hh : ':' ∉ h) (p : List Char) :
    (h ++ ':' :: p).count ':' = p.count ':' + 1 := by
  simp [List.count_append, List.count_eq_zero_of_not_mem hh]

theorem accepted_bare (ht : ':' ∉ t) : Accepted t := by
  refine ⟨by rw [List.count_eq_zero_of_not_mem ht]; omega, fun p hp => ?_⟩
  rw [portText_bare ht] at hp
  cases hp

theorem not_overlong_bare (ht : ':' ∉ t) : ¬Overlong t := by
  rintro ⟨-, p, hp, -⟩
  rw [portText_bare ht] at hp
  cases hp

theorem IsPort.notMem_colon (hp : IsPort p) : ':' ∉ p := by
  intro hmem
  exact absurd (hp.digits _ hmem) (by decide)

theorem accepted_colon (hh : ':' ∉ h) : Accepted (h ++ ':' :: p) ↔ IsPort p := by
  constructor
  · intro ha
    exact ha.port p (portText_colon hh p)
  · intro hp
    refine ⟨?_, fun q hq => ?_⟩
    · rw [count_colon hh, List.count_eq_zero_of_not_mem hp.notMem_colon]
    · rw [portText_colon hh] at hq
      cases hq
      exact hp

theorem overlong_colon (hh : ':' ∉ h) :
    Overlong (h ++ ':' :: p) ↔ (∀ c ∈ p, c.isDigit = true) ∧ 4300 < p.length := by
  constructor
  · rintro ⟨-, q, hq, hlong⟩
    rw [portText_colon hh] at hq
    cases hq
    exact hlong
  · intro hlong
    refine ⟨?_, p, portText_colon hh p, hlong⟩
    have hp : ':' ∉ p := fun hmem => absurd (hlong.1 _ hmem) (by decide)
    rw [count_colon hh, List.count_eq_zero_of_not_mem hp]

/-! ## Reading a token -/

theorem parse_bare (ht : ':' ∉ t) : parse t = .ok (addressOf t) := by
  have hs : Text.split ':' t = [t] := by
    rw [Text.split_eq_splitOn, List.splitOn_eq_singleton ht]
  simp only [parse, hs, addressOf, hostText_bare ht, portText_bare ht]
  rfl

/-- A second colon. -/
theorem parse_colons (hh : ':' ∉ h) (hp : ':' ∈ p) :
    parse (h ++ ':' :: p) = .error (.malformedAddress (String.ofList (h ++ ':' :: p))) := by
  obtain ⟨q, r, hpq, hq⟩ := List.eq_append_cons_of_mem hp
  obtain ⟨s, ss, hs⟩ := List.exists_cons_of_ne_nil (List.splitOn_ne_nil ':' r)
  have hsplit : Text.split ':' (h ++ ':' :: p) = h :: q :: s :: ss := by
    rw [Text.split_eq_splitOn, List.splitOn_append_cons_self_of_not_mem hh, hpq,
      List.splitOn_append_cons_self_of_not_mem hq, hs]
  simp only [parse, hsplit]

/-- One colon: the port decides. -/
theorem parse_colon (hh : ':' ∉ h) (hp : ':' ∉ p) :
    parse (h ++ ':' :: p) =
      if ¬Text.isNumeral p = true then
        .error (.portNotNumeric (String.ofList (h ++ ':' :: p)))
      else if 4300 < p.length then .error (.numeralTooLong p.length)
      else if 65535 < Nat.ofDigitChars 10 p 0 then
        .error (.portOutOfRange (String.ofList (h ++ ':' :: p)))
      else .ok (addressOf (h ++ ':' :: p)) := by
  have hsplit : Text.split ':' (h ++ ':' :: p) = [h, p] := by
    rw [Text.split_eq_splitOn, List.splitOn_append_cons_self_of_not_mem hh,
      List.splitOn_eq_singleton hp]
  simp only [parse, hsplit, addressOf, hostText_colon hh, portText_colon hh, Text.natOfDigits_eq,
    Fault.maxDigits, Fault.maxPort]
  simp

theorem parse_accepted (ha : Accepted t) (hs : ¬Overlong t) : parse t = .ok (addressOf t) := by
  rcases token_cases t with ht | ⟨h, p, hh, rfl⟩
  · exact parse_bare ht
  · rw [accepted_colon hh] at ha
    rw [overlong_colon hh] at hs
    have hlen : ¬4300 < p.length := fun hlt => hs ⟨ha.digits, hlt⟩
    have hn := Text.isNumeral_iff.mpr ⟨ha.ne_nil, ha.digits⟩
    rw [parse_colon hh ha.notMem_colon, if_neg (not_not.mpr hn), if_neg hlen,
      if_neg (Nat.not_lt.mpr ha.in_range)]

theorem parse_overlong (hs : Overlong t) : ∃ n, parse t = .error (.numeralTooLong n) := by
  rcases token_cases t with ht | ⟨h, p, hh, rfl⟩
  · exact absurd hs (not_overlong_bare ht)
  · obtain ⟨hd, hlong⟩ := (overlong_colon hh).mp hs
    have hne : p ≠ [] := by
      rintro rfl
      cases hlong
    have hp : ':' ∉ p := fun hmem => absurd (hd _ hmem) (by decide)
    have hn := Text.isNumeral_iff.mpr ⟨hne, hd⟩
    exact ⟨p.length, by rw [parse_colon hh hp, if_neg (not_not.mpr hn), if_pos hlong]⟩

theorem parse_refused (ha : ¬Accepted t) (hs : ¬Overlong t) :
    ∃ f, parse t = .error f ∧ f.ReportsAddress t := by
  rcases token_cases t with ht | ⟨h, p, hh, rfl⟩
  · exact absurd (accepted_bare ht) ha
  · rw [accepted_colon hh] at ha
    rw [overlong_colon hh] at hs
    by_cases hp : ':' ∈ p
    · exact ⟨_, parse_colons hh hp, rfl, rfl⟩
    · rw [parse_colon hh hp]
      by_cases hn : Text.isNumeral p = true
      · obtain ⟨hne, hd⟩ := Text.isNumeral_iff.mp hn
        have hlen : ¬4300 < p.length := fun hlt => hs ⟨hd, hlt⟩
        have hrange : 65535 < Nat.ofDigitChars 10 p 0 :=
          Nat.lt_of_not_le fun hle => ha ⟨hne, hd, hle⟩
        rw [if_neg (not_not.mpr hn), if_neg hlen, if_pos hrange]
        exact ⟨_, rfl, rfl, rfl⟩
      · rw [if_pos hn]
        exact ⟨_, rfl, rfl, rfl⟩

/-! ## Reading a specification -/

/-- The leftmost token of a specification that cannot be read. -/
def firstUnread (spec : String) : Option (List Char) :=
  (tokens spec).find? fun t => !decide (Accepted t ∧ ¬Overlong t)

section
variable {spec : String}

theorem resolve_eq (spec : String) : resolve spec = (tokens spec).mapM parse := by
  rw [resolve, Text.split_eq_splitOn, tokens]

theorem mapM_parse_accepted {ts : List (List Char)} (h : ∀ t ∈ ts, Accepted t ∧ ¬Overlong t) :
    ts.mapM parse = .ok (ts.map addressOf) := by
  induction ts with
  | nil => rfl
  | cons t ts ih =>
    obtain ⟨ht, hts⟩ := List.forall_mem_cons.mp h
    rw [List.mapM_cons, parse_accepted ht.1 ht.2, ih hts]
    rfl

theorem readable_of_none (h : firstUnread spec = none) :
    ∀ t ∈ tokens spec, Accepted t ∧ ¬Overlong t := by
  intro t ht
  simpa using List.find?_eq_none.mp h t ht

theorem resolve_accepted (h : ∀ t ∈ tokens spec, Accepted t ∧ ¬Overlong t) :
    resolve spec = .ok ((tokens spec).map addressOf) := by
  rw [resolve_eq, mapM_parse_accepted h]

/-- The leftmost token that cannot be read decides what becomes of the specification. -/
theorem resolve_unread {f : Fault} (h : firstUnread spec = some t) (hf : parse t = .error f) :
    resolve spec = .error f := by
  obtain ⟨-, before, after, hts, hb⟩ := List.find?_eq_some_iff_append.mp h
  -- reading goes as far as this token, since all in front of it can be read
  have hread : ∀ u ∈ before, Accepted u ∧ ¬Overlong u := by
    intro u hu
    simpa using hb u hu
  rw [resolve_eq, hts, List.mapM_append, mapM_parse_accepted hread, List.mapM_cons, hf]
  rfl

/-- It is overlong, or the grammar does not accept it. -/
theorem unread_cases (h : firstUnread spec = some t) :
    t ∈ tokens spec ∧ (Overlong t ∨ ¬Accepted t ∧ ¬Overlong t) := by
  refine ⟨List.mem_of_find?_eq_some h, ?_⟩
  have hn : ¬(Accepted t ∧ ¬Overlong t) := of_decide_eq_true (by simpa using List.find?_some h)
  by_cases hs : Overlong t
  · exact .inl hs
  · exact .inr ⟨fun ha => hn ⟨ha, hs⟩, hs⟩

theorem resolve_overlong (h : firstUnread spec = some t) (hs : Overlong t) :
    ∃ n, resolve spec = .error (.numeralTooLong n) := by
  obtain ⟨n, hn⟩ := parse_overlong hs
  exact ⟨n, resolve_unread h hn⟩

theorem resolve_refused (h : firstUnread spec = some t) (ha : ¬Accepted t) (hs : ¬Overlong t) :
    ∃ f, resolve spec = .error f ∧ f.ReportsAddress t := by
  obtain ⟨f, hf, hr⟩ := parse_refused ha hs
  exact ⟨f, resolve_unread h hf, hr⟩

/-- A specification that is read has only tokens that can be read. -/
theorem readable_of_resolve {as : List ServerAddress} (h : resolve spec = .ok as) :
    (∀ t ∈ tokens spec, Accepted t ∧ ¬Overlong t) ∧ as = (tokens spec).map addressOf := by
  cases hu : firstUnread spec with
  | none =>
    have hall := readable_of_none hu
    rw [resolve_accepted hall] at h
    cases h
    exact ⟨hall, rfl⟩
  | some t =>
    rcases (unread_cases hu).2 with hs | ⟨ha, hs⟩
    · obtain ⟨n, hn⟩ := resolve_overlong hu hs
      cases h.symm.trans hn
    · obtain ⟨f, hf, -⟩ := resolve_refused hu ha hs
      cases h.symm.trans hf

/-- A specification without overlong ports is read exactly if the grammar accepts each of its
tokens; the addresses are those of the tokens, in order. Otherwise the leftmost token that the
grammar does not accept is reported. -/
theorem resolve_reads_grammar (spec : String) (hshort : ∀ t ∈ tokens spec, ¬Overlong t) :
    (tokens spec).length = spec.toList.count ',' + 1 ∧
    ((∃ as, resolve spec = .ok as) ↔ ∀ t ∈ tokens spec, Accepted t) ∧
    (∀ as, resolve spec = .ok as → as = (tokens spec).map addressOf) ∧
    ((¬∀ t ∈ tokens spec, Accepted t) → ∃ t f,
      (tokens spec).find? (fun t => !decide (Accepted t)) = some t ∧
      resolve spec = .error f ∧ f.ReportsAddress t) := by
  refine ⟨Text.length_splitOn _ _, ⟨?_, ?_⟩, fun as h => (readable_of_resolve h).2, ?_⟩
  · rintro ⟨as, h⟩ t ht
    exact ((readable_of_resolve h).1 t ht).1
  · intro hall
    exact ⟨_, resolve_accepted fun t ht => ⟨hall t ht, hshort t ht⟩⟩
  · intro hn
    cases hu : firstUnread spec with
    | none => exact absurd (fun t ht => (readable_of_none hu t ht).1) hn
    | some t =>
      obtain ⟨ht, hc⟩ := unread_cases hu
      obtain ⟨ha, hs⟩ := hc.resolve_left (hshort t ht)
      obtain ⟨f, hf, hr⟩ := resolve_refused hu ha hs
      refine ⟨t, f, ?_, hf, hr⟩
      rw [← hu, firstUnread]
      refine List.find?_congr fun u hu => ?_
      simp [hshort u hu]

/-- A port with a leading zero, an empty token and two tokens that are refused, of which the first
one is reported. -/
theorem resolve_reads_grammar_of_two_refused :
    (∀ t ∈ tokens "a:07,,b:+1,c:1:2", ¬Overlong t) ∧
    ∃ f, resolve "a:07,,b:+1,c:1:2" = .error f ∧ f.ReportsAddress "b:+1".toList := by
  have hshort : ∀ t ∈ tokens "a:07,,b:+1,c:1:2", ¬Overlong t := by decide +kernel
  have hfirst : (tokens "a:07,,b:+1,c:1:2").find? (fun t => !decide (Accepted t)) =
      some "b:+1".toList := by
    decide +kernel
  obtain ⟨-, -, -, hrefused⟩ := resolve_reads_grammar _ hshort
  obtain ⟨t, f, ht, hf, hr⟩ := hrefused (by decide +kernel)
  cases hfirst.symm.trans ht
  exact ⟨hshort, f, hf, hr⟩

end

end ServerAddress
end RedisGateway
