import RedisGateway.Proofs.Address.Grammar
import RedisGateway.Proofs.Manager.Attempts

/-!
How a specification is turned down that cannot be read. The fault reports a token, unless the
leftmost token that cannot be read has a port that is too long to be converted; and an
initialization that is given the specification ends in the same fault before it has changed or
opened anything.
-/

namespace RedisGateway
namespace ServerAddress

variable {spec : String} {t : List Char}

/-- The specification is read, or turned down by a fault that reports one of its tokens. -/
def ReadOrReported (spec : String) : Prop :=
  (∃ as, resolve spec = .ok as) ∨
    ∃ t ∈ tokens spec, ∃ f, resolve spec = .error f ∧ f.ReportsAddress t

/-- The conversion of a numeral that is too long reports no token. -/
theorem not_reported_of_overlong (hu : firstUnread spec = some t) (hs : Overlong t) :
    ¬ReadOrReported spec := by
  obtain ⟨n, hn⟩ := resolve_overlong hu hs
  rintro (⟨as, h⟩ | ⟨u, -, f, h, hr, -⟩)
  · cases h.symm.trans hn
  · cases h.symm.trans hn
    cases hr

theorem readOrReported_iff (spec : String) :
    ReadOrReported spec ↔ ∀ t, firstUnread spec = some t → ¬Overlong t := by
  constructor
  · intro h t hu hs
    exact not_reported_of_overlong hu hs h
  · intro h
    cases hu : firstUnread spec with
    | none => exact .inl ⟨_, resolve_accepted (readable_of_none hu)⟩
    | some t =>
      obtain ⟨ht, hc⟩ := unread_cases hu
      obtain ⟨ha, hs⟩ := hc.resolve_left (h t hu)
      obtain ⟨f, hf, hr⟩ := resolve_refused hu ha hs
      exact .inr ⟨t, ht, f, hf, hr⟩

/-- Nothing is asked of the world before a specification is turned down. -/
theorem establish_unread {f : Fault} (plan : ManagerPlan) (password : Value) (options : Options)
    (w : World) (h : resolve spec = .error f) :
    (Manager.establish plan spec password options).run w = (.error f, w) := by
  have hr : (Connector.resolve spec).run w = (.error f, w) := by
    simp only [Connector.resolve, Act.run_bind, h]
    rfl
  simp only [Manager.establish, Act.run_bind, hr]

theorem init_unread {f : Fault} {s : Site} (password : Value) (options : Options)
    (hc : s.manager.closed = false) (hn : s.manager.facade = none)
    (h : resolve spec = .error f) :
    (Manager.init spec password options).run s = (.error f, s) := by
  rw [Manager.init_open spec password options hc hn,
    establish_unread s.manager.plan password options s.world h]

/-- What cannot be read is reported, by a fault that carries one of its tokens, if and only if the
leftmost token that cannot be read is not one whose port is too long to be converted: then the
conversion fails without a report. Either way an initialization that is given the specification ends
in the same fault, with nothing opened and nothing changed. -/
theorem read_or_reported_iff (spec : String) :
    (ReadOrReported spec ↔ ∀ t, firstUnread spec = some t → ¬Overlong t) ∧
    (∀ t, firstUnread spec = some t → Overlong t →
      ∃ n, resolve spec = .error (.numeralTooLong n)) ∧
    ∀ f, resolve spec = .error f → ∀ (s : Site) (password : Value) (options : Options),
      s.manager.closed = false → s.manager.facade = none →
      (Manager.init spec password options).run s = (.error f, s) :=
  ⟨readOrReported_iff spec, fun _ => resolve_overlong,
    fun _ h _ password options hc hn => init_unread password options hc hn h⟩

/-! ## A port that is too long -/

/-- The token of the host `h` with a port of 4301 ones. -/
def longPort : List Char := 'h' :: ':' :: List.replicate 4301 '1'

theorem longPort_overlong : Overlong longPort := by
  have hh : ':' ∉ ['h'] := by decide
  refine (overlong_colon hh).mpr ⟨fun c hc => ?_, ?_⟩
  · rw [List.eq_of_mem_replicate hc]
    rfl
  · rw [List.length_replicate]
    decide

theorem tokens_longPort : tokens (String.ofList longPort) = [longPort] := by
  have hcomma : ',' ∉ longPort := by
    intro hmem
    rcases List.mem_cons.mp hmem with hc | hmem
    · cases hc
    · rcases List.mem_cons.mp hmem with hc | hmem
      · cases hc
      · cases List.eq_of_mem_replicate hmem
  rw [tokens, String.toList_ofList, List.splitOn_eq_singleton hcomma]

theorem firstUnread_longPort : firstUnread (String.ofList longPort) = some longPort := by
  rw [firstUnread, tokens_longPort, List.find?_cons_of_pos]
  simp [longPort_overlong]

/-- The only token of the specification has a port that is too long, and is not reported. -/
theorem longPort_not_reported : ¬ReadOrReported (String.ofList longPort) :=
  not_reported_of_overlong firstUnread_longPort longPort_overlong

/-- A token that breaks the grammar in front of the port that is too long is reported. -/
theorem read_or_reported_iff_of_two_tokens :
    ReadOrReported "a:1:2,b" ∧
    (∃ f, resolve "a:1:2,b" = .error f ∧
      (Manager.init "a:1:2,b" .none .absent).run ⟨{ plan := {} }, {}⟩ =
        (.error f, ⟨{ plan := {} }, {}⟩)) ∧
    ∃ n, resolve (String.ofList longPort) = .error (.numeralTooLong n) := by
  have hfirst : firstUnread "a:1:2,b" = some "a:1:2".toList := by decide +kernel
  have hshort : ¬Overlong "a:1:2".toList := by decide +kernel
  have hresolve : resolve "a:1:2,b" = .error (.malformedAddress "a:1:2") := rfl
  obtain ⟨hiff, -, hinit⟩ := read_or_reported_iff "a:1:2,b"
  obtain ⟨-, hlong, -⟩ := read_or_reported_iff (String.ofList longPort)
  refine ⟨hiff.mpr fun t ht => ?_, ⟨_, hresolve, hinit _ hresolve _ _ _ rfl rfl⟩,
    hlong _ firstUnread_longPort longPort_overlong⟩
  cases hfirst.symm.trans ht
  exact hshort

end ServerAddress
end RedisGateway
