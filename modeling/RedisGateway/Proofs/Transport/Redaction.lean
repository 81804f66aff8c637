import RedisGateway.Connector

/-!
Configurations with their passwords redacted. A configuration that is made with a redacted password
is the configuration with its password redacted, and its client keywords are those with what is
under the name of the password redacted. The line that shows a configuration is the same.
-/

namespace RedisGateway

/-- What stands in place of a password. -/
def redaction : String := "***"

/-- A password that counts is redacted; a blank one, or what is no text, counts for none. -/
def Value.redacted (password : Value) : Value :=
  if (Transport.textOf (some password)).isSome then .text redaction else password

/-- What is under the name of the password is redacted. -/
def Keywords.redacted (kws : Keywords) : Keywords :=
  kws.map fun e => (e.1, if e.1 = "password" then .text redaction else e.2)

def Transport.redacted (t : Transport) : Transport :=
  { t with password := t.password.map fun _ => .plain redaction }

theorem LooseText.redacted_value {p : LooseText} (h : p.allBlank = false) :
    p.value.redacted = .text redaction := by
  cases p <;> simp [Value.redacted, Transport.textOf, value, Value.looseText?, h]

namespace Keywords

theorem redacted_append (kws kws' : Keywords) :
    (kws ++ kws').redacted = kws.redacted ++ kws'.redacted :=
  List.map_append

/-- Other keywords stay as they are. -/
theorem redacted_of_other {kws : Keywords}
    (h : ∀ e ∈ kws, e.1 ≠ "password") : kws.redacted = kws := by
  induction kws with
  | nil => rfl
  | cons e rest ih =>
    rw [List.forall_mem_cons] at h
    have hr : Keywords.redacted rest = rest := ih h.2
    simp only [redacted] at hr
    simp only [redacted, List.map_cons, if_neg h.1, hr]

end Keywords

namespace Transport

theorem textOf_redacted (password : Value) :
    textOf (some password.redacted) = (textOf (some password)).map fun _ => .plain redaction := by
  unfold Value.redacted
  cases h : textOf (some password) with
  | none => exact h
  | some p => rfl

/-- The configuration made with a redacted password. -/
theorem build_redacted (host : String) (port : Int) (password : Value) (options : Options) :
    build host port password.redacted options =
      (build host port password options).map redacted := by
  simp only [build, textOf_redacted]
  cases timeoutOf (lookup options.toFields .connectionTimeout) <;> rfl

/-- The line that shows a configuration does not show its password. -/
theorem describe_redacted (t : Transport) : t.redacted.describe = t.describe := rfl

/-- Of the keywords for values that may be unset, only the password is redacted. -/
theorem keyword?_redacted {α : Type} {name : String} (hn : name ≠ "password") (make : α → Setting)
    (a : Option α) : Keywords.redacted (keyword? name make a) = keyword? name make a := by
  refine Keywords.redacted_of_other fun e he => ?_
  cases a with
  | none => cases he
  | some a =>
    rw [List.mem_singleton.mp he]
    exact hn

theorem password_redacted (password : Option LooseText) :
    Keywords.redacted (keyword? "password" .ofText password) =
      keyword? "password" .ofText (password.map fun _ => .plain redaction) := by
  cases password <;> rfl

theorem tlsKeywords_redacted (t : Transport) : t.tlsKeywords.redacted = t.tlsKeywords := by
  refine Keywords.redacted_of_other ?_
  unfold tlsKeywords
  split
  · simp
  · simp

theorem sharedKeywords_redacted (t : Transport) (c : Codec) :
    t.redacted.sharedKeywords c = (t.sharedKeywords c).redacted := by
  have hc : c.keywords.redacted = c.keywords :=
    Keywords.redacted_of_other (by simp [Codec.keywords])
  simp (disch := decide) only [sharedKeywords, Keywords.redacted_append, password_redacted,
    tlsKeywords_redacted, keyword?_redacted, hc]
  rfl

theorem endpointKeywords_redacted (t : Transport) (c : Codec) :
    t.redacted.endpointKeywords c = (t.endpointKeywords c).redacted := by
  have he : Keywords.redacted [("host", .text t.host), ("port", .number t.port)] =
      [("host", .text t.host), ("port", .number t.port)] := Keywords.redacted_of_other (by simp)
  simp (disch := decide) only [endpointKeywords, Keywords.redacted_append, keyword?_redacted, he,
    ← sharedKeywords_redacted]
  rfl

end Transport
end RedisGateway
