import Mathlib.Data.List.Nodup
import RedisGateway.Proofs.Pool.Script
import RedisGateway.Proofs.Pool.Tally

/-!
Where the connections are. As long as callers give back what they borrowed, once each, and besides
only what is no connection of the pool, every connection has exactly one place: among the accounts,
in the hands of one call, or closed.
-/

namespace RedisGateway.Pool

/-- Where a connection can be. -/
inductive Place where
  | idle
  | inUse
  /-- In the hands of a call, between the answer of the supplier and the accounts. -/
  | unregistered (i : Nat)
  /-- In the hands of a call that is about to close it. -/
  | doomed (i : Nat)
  | closed
  deriving DecidableEq, Repr

namespace Entry

variable {policy : Policy} {phase next : Phase} {core core' : Core} {wake : Wake}

/-- A turn moves a connection from one place to another and loses none. -/
theorem places (e : Entry policy phase core core' next wake) (c : Conn) (ha : Apart core phase)
    (hm : ∀ d ∈ phase.minded, d ∈ core.inUse) :
    core'.idle.count c + core'.inUse.count c +
        (next.unregistered.count c + next.doomed.count c) =
      core.idle.count c + core.inUse.count c +
        (phase.unregistered.count c + phase.doomed.count c) := by
  cases e with
  | @reuse _ _ _ d rest _ hopen hi hn =>
    have hc := count_insert_add (ha.front hi) c
    rw [hi, count_cons_add]
    rcases hn with rfl | rfl <;>
      simp only [Phase.unregistered, Phase.doomed, List.count_nil] <;> omega
  | full hopen hi hr hn => rcases hn with rfl | rfl | ⟨f, rfl⟩ <;> rfl
  | @drop d =>
    have hc := count_erase_add (hm d (List.mem_singleton_self d)) c
    simp only [Phase.unregistered, Phase.doomed, List.count_nil]
    omega
  | @refuse d _ hclosed =>
    simp only [Phase.unregistered, Phase.doomed, List.count_nil]
    omega
  | @enrol d _ hopen =>
    have hc := count_insert_add (ha.unregistered rfl) c
    simp only [Phase.unregistered, Phase.doomed, List.count_nil]
    omega
  | accept hu hr hn => rcases hn with rfl | ⟨keep, shut, rfl⟩ <;> rfl
  | @keep d _ _ _ hu hopen hk =>
    have hc := count_erase_add hu c
    rw [count_cons_add]
    simp only [Phase.unregistered, Phase.doomed, List.count_nil]
    omega
  | @retire d _ _ _ hu =>
    have hc := count_erase_add hu c
    simp only [Phase.unregistered, Phase.doomed, List.count_nil]
    omega
  | shut hopen =>
    rw [sweep_unregistered, sweep_doomed, List.count_reverse]
    simp only [Phase.unregistered, Phase.doomed, List.count_nil]
    omega
  | _ => rfl

/-- The returns in progress are those between their two turns. -/
theorem returning (e : Entry policy phase core core' next wake) (c : Conn)
    (h : phase.takenBack.count c ≤ core.returning.count c) :
    core'.returning.count c + phase.takenBack.count c =
      core.returning.count c + next.takenBack.count c := by
  -- the end of a return takes out the one entry that its beginning made
  have settled : ∀ d, phase.takenBack = [d] →
      (core.returning.erase d).count c + [d].count c = core.returning.count c := by
    intro d hd
    by_cases hc : d = c
    · subst hc
      rw [hd] at h
      rw [count_erase_add]
      refine List.count_pos_iff.mp ?_
      simpa using h
    · rw [List.count_erase_of_ne (Ne.symm hc), List.count_singleton,
        if_neg (by simpa using hc)]
      rfl
  cases e with
  | reuse hopen hi hn => rcases hn with rfl | rfl <;> rfl
  | full hopen hi hr hn => rcases hn with rfl | rfl | ⟨f, rfl⟩ <;> rfl
  | @accept d _ _ hu hr hn =>
    rcases hn with rfl | ⟨keep, shut, rfl⟩ <;> exact count_cons_add c d core.returning
  | forget hu => exact settled _ rfl
  | keep hu hopen hk => exact settled _ rfl
  | retire hu => exact settled _ rfl
  | shut hopen =>
    rw [sweep_takenBack]
    rfl
  | _ => rfl

/-- What a call looks after, was asked to take back or delivers is in use: a turn changes the one
as it changes the other, provided that it does not ignore what it was asked to take back. -/
theorem hands (e : Entry policy phase core core' next wake) (c : Conn) (ha : Apart core phase)
    (hm : ∀ d ∈ phase.minded, d ∈ core.inUse)
    (hc : c ∈ phase.claimed → c ∈ core.inUse ∧ c ∉ core.returning) :
    next.minded.count c + next.claimed.count c + next.delivered.count c + core.inUse.count c =
      phase.minded.count c + phase.claimed.count c + core'.inUse.count c := by
  cases e with
  | @reuse _ _ _ d rest _ hopen hi hn =>
    have hc := count_insert_add (ha.front hi) c
    rcases hn with rfl | rfl <;>
      simp only [Phase.minded, Phase.claimed, Phase.delivered, List.count_nil] <;> omega
  | full hopen hi hr hn =>
    rcases hn with rfl | rfl | ⟨f, rfl⟩ <;>
      simp only [Phase.minded, Phase.claimed, Phase.delivered, List.count_nil]
  | @drop d =>
    have hc := count_erase_add (hm d (List.mem_singleton_self d)) c
    simp only [Phase.minded, Phase.claimed, Phase.delivered, List.count_nil]
    omega
  | @enrol d _ hopen =>
    have hc := count_insert_add (ha.unregistered rfl) c
    simp only [Phase.minded, Phase.claimed, Phase.delivered, List.count_nil]
    omega
  | @ignore d _ h =>
    have hcd : c ≠ d := by
      rintro rfl
      obtain ⟨h1, h2⟩ := hc (List.mem_singleton_self c)
      exact h.elim (absurd h1) fun h => h2 h
    have h0 : [d].count c = 0 := List.count_eq_zero.mpr (by simpa using hcd)
    simp only [Phase.minded, Phase.claimed, Phase.delivered, List.count_nil, h0]
  | accept hu hr hn =>
    rcases hn with rfl | ⟨keep, shut, rfl⟩ <;>
      simp only [Phase.minded, Phase.claimed, Phase.delivered, List.count_nil] <;> omega
  | @forget d keep shut _ hu => exact absurd (hm d (List.mem_singleton_self d)) hu
  | @keep d _ _ _ hu hopen hk =>
    have hc := count_erase_add hu c
    simp only [Phase.minded, Phase.claimed, Phase.delivered, List.count_nil]
    omega
  | @retire d _ _ _ hu =>
    have hc := count_erase_add hu c
    simp only [Phase.minded, Phase.claimed, Phase.delivered, List.count_nil]
    omega
  | shut hopen =>
    rw [sweep_minded, sweep_claimed, sweep_delivered]
    rfl
  | announce =>
    simp only [Phase.minded, Phase.claimed, Phase.delivered, List.count_nil]
    omega
  | _ => rfl

/-- A call does not come to look after or deliver what the pool does not know. -/
theorem untouched (e : Entry policy phase core core' next wake) (c : Conn) :
    next.minded.count c + next.delivered.count c ≤
      phase.minded.count c + core.idle.count c + core.inUse.count c +
        phase.unregistered.count c := by
  cases e with
  | @reuse _ _ _ d rest _ hopen hi hn =>
    rw [hi, count_cons_add]
    rcases hn with rfl | rfl <;>
      simp only [Phase.minded, Phase.delivered, List.count_nil] <;> omega
  | full hopen hi hr hn =>
    rcases hn with rfl | rfl | ⟨f, rfl⟩ <;>
      simp only [Phase.minded, Phase.delivered, List.count_nil] <;> omega
  | @accept d _ _ hu hr hn =>
    have h1 : [d].count c ≤ core.inUse.count c := by
      by_cases hcd : c = d
      · subst hcd
        rw [List.count_singleton_self]
        exact List.count_pos_iff.mpr hu
      · rw [List.count_eq_zero.mpr (by simpa using hcd)]
        omega
    rcases hn with rfl | ⟨keep, shut, rfl⟩ <;>
      simp only [Phase.minded, Phase.delivered, List.count_nil] <;> omega
  | shut hopen =>
    rw [sweep_minded, sweep_delivered]
    exact Nat.zero_le _
  | _ =>
    simp only [Phase.minded, Phase.delivered, Phase.unregistered, List.count_nil]
    omega

end Entry

namespace TrackedSystem

/-- The supplier opens new connections, and callers give back what they borrowed, once each. -/
def Fair : Rule
  | s, h => Novel s h ∧ Honest s h

instance (s : TrackedSystem) (h : Happening) : Decidable (Fair s h) :=
  inferInstanceAs (Decidable (_ ∧ _))

/-- The connections that borrowers hold. -/
def lentOut (s : TrackedSystem) : List Conn := s.lent.map (·.2)

/-- Where a connection is, with a place as often as the connection is there. -/
def whereabouts (s : TrackedSystem) (c : Conn) : List Place :=
  List.replicate (s.core.idle.count c) .idle ++ List.replicate (s.core.inUse.count c) .inUse ++
    (s.system.threads.zipIdx.flatMap fun (t, i) =>
      List.replicate (t.phase.unregistered.count c) (.unregistered i) ++
        List.replicate (t.phase.doomed.count c) (.doomed i)) ++
    List.replicate (s.closed.count c) .closed

theorem length_whereabouts (s : TrackedSystem) (c : Conn) :
    (s.whereabouts c).length = s.core.idle.count c + s.core.inUse.count c +
      (s.held Phase.unregistered c + s.held Phase.doomed c) + s.closed.count c := by
  have hands : ∀ (threads : List Thread) (n : Nat), ((threads.zipIdx n).flatMap fun (t, i) =>
      List.replicate (t.phase.unregistered.count c) (Place.unregistered i) ++
        List.replicate (t.phase.doomed.count c) (Place.doomed i)).length =
      addUp (fun phase => phase.unregistered.count c) threads +
        addUp (fun phase => phase.doomed.count c) threads := by
    intro threads
    induction threads with
    | nil => intro n; rfl
    | cons t threads ih =>
      intro n
      rw [List.zipIdx_cons, List.flatMap_cons, List.length_append, ih]
      simp only [List.length_append, List.length_replicate, addUp]
      omega
  simp only [whereabouts, List.length_append, List.length_replicate, hands, held, System.tally]

/-- Who has what: the places of the connections, and for each connection in use whose hands it is
in. Strangers are in no place. -/
structure Custody (s : TrackedSystem) : Prop where
  places : ∀ c, s.core.idle.count c + s.core.inUse.count c +
    (s.held Phase.unregistered c + s.held Phase.doomed c) + s.closed.count c = s.opened.count c
  novel : s.opened.Nodup
  returning : ∀ c, s.core.returning.count c = s.held Phase.takenBack c
  hands : ∀ c, c ∉ s.strangers →
    s.held Phase.minded c + s.held Phase.claimed c + s.lentOut.count c = s.core.inUse.count c
  foreign : ∀ c ∈ s.strangers, c ∉ s.opened
  untouched : ∀ c ∈ s.strangers, s.held Phase.minded c + s.lentOut.count c = 0

/-- The ways of having a connection in hand. -/
def allHands : List (Phase → List Conn) :=
  [Phase.unregistered, Phase.doomed, Phase.takenBack, Phase.minded, Phase.claimed]

variable {policy : Policy} {s t : TrackedSystem} {h : Happening}

/-- A step that changes neither the accounts nor what is in hand keeps everything in its place. -/
theorem Custody.of_same (hs : Custody s) (hc : t.core = s.core) (ho : t.opened = s.opened)
    (hx : t.closed = s.closed) (hl : t.lent = s.lent) (hf : t.strangers = s.strangers)
    (hh : ∀ hands ∈ allHands, ∀ c, t.held hands c = s.held hands c) : Custody t := by
  simp only [allHands, List.forall_mem_cons] at hh
  obtain ⟨h1, h2, h3, h4, h5, -⟩ := hh
  refine ⟨?_, ?_, ?_, ?_, ?_, ?_⟩
  · intro c
    rw [hc, ho, hx, h1, h2]
    exact hs.places c
  · rw [ho]
    exact hs.novel
  · intro c
    rw [hc, h3]
    exact hs.returning c
  · intro c
    rw [hf, hc, h4, h5, lentOut, hl]
    exact hs.hands c
  · rw [hf, ho]
    exact hs.foreign
  · intro c
    rw [hf, h4, lentOut, hl]
    exact hs.untouched c

theorem Custody.opening (h : JustOpened policy s) : Custody s := by
  obtain ⟨idle, hn, -, rfl⟩ := h.shape
  exact ⟨fun _ => rfl, hn, fun _ => rfl, fun _ _ => rfl, nofun, nofun⟩

theorem Custody.le_one (hs : Custody s) (c : Conn) :
    s.core.idle.count c + s.core.inUse.count c +
      (s.held Phase.unregistered c + s.held Phase.doomed c) + s.closed.count c ≤ 1 := by
  rw [hs.places]
  exact List.nodup_iff_count.mp hs.novel c

/-- What is in hand is in use and no stranger. -/
theorem Custody.mem_inUse (hs : Custody s) {c : Conn}
    (hc : 0 < s.held Phase.minded c + s.lentOut.count c) : c ∉ s.strangers ∧ c ∈ s.core.inUse := by
  have hn : c ∉ s.strangers := fun hf => by
    have := hs.untouched c hf
    omega
  refine ⟨hn, List.count_pos_iff.mp ?_⟩
  have := hs.hands c hn
  omega

theorem takenBack_le_minded (c : Conn) (s : TrackedSystem) :
    s.held Phase.takenBack c ≤ s.held Phase.minded c := by
  refine addUp_le_addUp (fun phase => ?_) s.system.threads
  cases phase <;> first | exact Nat.le_refl _ | exact Nat.zero_le _

/-- Of what is no stranger, a return that was asked for is never ignored. -/
theorem Custody.claimed (hs : Custody s) {c : Conn} (hn : c ∉ s.strangers)
    (hc : 0 < s.held Phase.claimed c) : c ∈ s.core.inUse ∧ c ∉ s.core.returning := by
  have hh := hs.hands c hn
  refine ⟨List.count_pos_iff.mp (by omega), fun hr => ?_⟩
  have h1 := List.count_pos_iff.mpr hr
  have h2 := hs.returning c
  have h3 := takenBack_le_minded c s
  have h4 := hs.le_one c
  omega

/-- Strangers are in no place. -/
theorem Custody.stranger (hs : Custody s) {c : Conn} (hf : c ∉ s.opened) :
    s.core.idle.count c + s.core.inUse.count c + s.held Phase.unregistered c = 0 := by
  have hp := hs.places c
  rw [List.count_eq_zero.mpr hf] at hp
  omega

theorem Custody.turn (hs : Custody s) {i : Nat} {turn : Core → Turn}
    (hm : s.move? policy i = some (.hold turn)) : Custody (s.hold i turn) := by
  obtain ⟨phase, next, wake, e, hn, -, hh⟩ := turn_held hm
  have ha : Apart s.core phase := by
    intro d
    have h1 := hs.le_one d
    have h2 := (hh _ steady_unregistered d).1
    omega
  have hu : ∀ d ∈ phase.minded, d ∈ s.core.inUse := by
    intro d hd
    have h1 := List.count_pos_iff.mpr hd
    have h2 := (hh _ steady_minded d).1
    exact (hs.mem_inUse (by omega)).2
  -- what the call delivers is lent from here on
  have hl : ∀ c, (s.hold i turn).lentOut.count c = next.delivered.count c + s.lentOut.count c := by
    intro c
    simp [lentOut, hold, hn, Function.comp_def]
  refine ⟨?_, hs.novel, ?_, ?_, hs.foreign, ?_⟩
  · intro c
    have h1 := e.places c ha hu
    have h2 := (hh _ steady_unregistered c).2
    have h3 := (hh _ steady_doomed c).2
    have h4 := hs.places c
    show _ + s.closed.count c = s.opened.count c
    omega
  · intro c
    have h1 := (hh _ steady_takenBack c).1
    have h2 := (hh _ steady_takenBack c).2
    have h3 := hs.returning c
    have h4 := e.returning c (by omega)
    omega
  · intro c hc
    have h1 := (hh _ steady_claimed c).1
    have h2 := e.hands c ha hu fun hp => hs.claimed hc
      (Nat.lt_of_lt_of_le (List.count_pos_iff.mpr hp) h1)
    have h3 := (hh _ steady_minded c).2
    have h4 := (hh _ steady_claimed c).2
    have h5 := hs.hands c hc
    have h6 := hl c
    omega
  · intro c hc
    have h1 := e.untouched c
    have h2 := hs.stranger (hs.foreign c hc)
    have h3 := hs.untouched c hc
    have h4 := (hh _ steady_minded c).2
    have h5 := (hh _ steady_unregistered c).1
    have h6 := hl c
    omega

theorem Custody.supplied (hs : Custody s) {i : Nat} {d : Conn}
    {resume : Except Failure Conn → Phase × List Notice}
    (hm : s.move? policy i = some (.ask .supply resume)) (hd : d ∉ s.opened ∧ d ∉ s.strangers) :
    Custody ((s.goOn i (resume (.ok d)).1).withOpened d) := by
  have hh := supplied_held hm d
  have hu : ∀ c, (s.goOn i (resume (.ok d)).1).held Phase.unregistered c =
      s.held Phase.unregistered c + [d].count c := hh Phase.unregistered
  have hx : ∀ c, (s.goOn i (resume (.ok d)).1).held Phase.doomed c = s.held Phase.doomed c :=
    hh Phase.doomed
  have hn : ∀ c, (s.goOn i (resume (.ok d)).1).held Phase.minded c = s.held Phase.minded c :=
    hh Phase.minded
  have hc : ∀ c, (s.goOn i (resume (.ok d)).1).held Phase.claimed c = s.held Phase.claimed c :=
    hh Phase.claimed
  refine ⟨?_, List.nodup_cons.mpr ⟨hd.1, hs.novel⟩, ?_, ?_, ?_, ?_⟩
  · intro c
    have h1 := hs.places c
    show s.core.idle.count c + s.core.inUse.count c +
      ((s.goOn i (resume (.ok d)).1).held Phase.unregistered c +
        (s.goOn i (resume (.ok d)).1).held Phase.doomed c) + s.closed.count c =
      (d :: s.opened).count c
    rw [hu, hx, count_cons_add c d s.opened]
    omega
  · intro c
    exact (hs.returning c).trans (hh Phase.takenBack c).symm
  · intro c hf
    show (s.goOn i (resume (.ok d)).1).held Phase.minded c +
      (s.goOn i (resume (.ok d)).1).held Phase.claimed c + s.lentOut.count c = s.core.inUse.count c
    rw [hn, hc]
    exact hs.hands c hf
  · intro c hf ho
    rcases List.mem_cons.mp ho with rfl | ho
    · exact hd.2 hf
    · exact hs.foreign c hf ho
  · intro c hf
    show (s.goOn i (resume (.ok d)).1).held Phase.minded c + s.lentOut.count c = 0
    rw [hn]
    exact hs.untouched c hf

/-- A return that starts changes nothing but what calls were asked to take back. -/
theorem Custody.accepting (hs : Custody s) (d c : Conn) :
    s.core.idle.count c + s.core.inUse.count c +
        ((s.start .endless (.accepting d)).held Phase.unregistered c +
          (s.start .endless (.accepting d)).held Phase.doomed c) + s.closed.count c =
      s.opened.count c ∧
    s.core.returning.count c = (s.start .endless (.accepting d)).held Phase.takenBack c ∧
    (s.start .endless (.accepting d)).held Phase.minded c = s.held Phase.minded c ∧
    (s.start .endless (.accepting d)).held Phase.claimed c =
      s.held Phase.claimed c + [d].count c := by
  have hh := start_held s .endless (.accepting d)
  have hu : (s.start .endless (.accepting d)).held Phase.unregistered c =
      s.held Phase.unregistered c := hh Phase.unregistered c
  have hx : (s.start .endless (.accepting d)).held Phase.doomed c = s.held Phase.doomed c :=
    hh Phase.doomed c
  refine ⟨?_, ?_, hh Phase.minded c, hh Phase.claimed c⟩
  · rw [hu, hx]
    exact hs.places c
  · exact (hs.returning c).trans (hh Phase.takenBack c).symm

theorem Custody.giveBack (hs : Custody s) {loan : Nat × Conn} (hl : loan ∈ s.lent) :
    Custody ((s.start .endless (.accepting loan.2)).withoutLoan loan) := by
  have ha := hs.accepting loan.2
  have hc : ∀ c, ((s.lent.erase loan).map (·.2)).count c + [loan.2].count c =
      s.lentOut.count c := by
    intro c
    rw [← count_cons_add]
    exact ((List.perm_cons_erase hl).symm.map (·.2)).count_eq c
  refine ⟨fun c => (ha c).1, hs.novel, fun c => (ha c).2.1, ?_, hs.foreign, ?_⟩
  · intro c hn
    obtain ⟨-, -, h1, h2⟩ := ha c
    have h3 := hs.hands c hn
    have h4 := hc c
    show (s.start .endless (.accepting loan.2)).held Phase.minded c +
      (s.start .endless (.accepting loan.2)).held Phase.claimed c +
      ((s.lent.erase loan).map (·.2)).count c = s.core.inUse.count c
    omega
  · intro c hf
    obtain ⟨-, -, h1, -⟩ := ha c
    have h2 := hs.untouched c hf
    have h3 := hc c
    show (s.start .endless (.accepting loan.2)).held Phase.minded c +
      ((s.lent.erase loan).map (·.2)).count c = 0
    omega

theorem Custody.offer (hs : Custody s) {d : Conn} (hd : d ∉ s.opened) :
    Custody ((s.start .endless (.accepting d)).withStranger d) := by
  have ha := hs.accepting d
  refine ⟨fun c => (ha c).1, hs.novel, fun c => (ha c).2.1, ?_, ?_, ?_⟩
  · intro c hc
    obtain ⟨-, -, h1, h2⟩ := ha c
    have h3 : [d].count c = 0 :=
      List.count_eq_zero.mpr (by simpa using List.ne_of_not_mem_cons hc)
    show (s.start .endless (.accepting d)).held Phase.minded c +
      (s.start .endless (.accepting d)).held Phase.claimed c + s.lentOut.count c =
      s.core.inUse.count c
    rw [h1, h2, h3]
    exact hs.hands c (List.not_mem_of_not_mem_cons hc)
  · intro c hc
    rcases List.mem_cons.mp hc with rfl | hc
    · exact hd
    · exact hs.foreign c hc
  · intro c hc
    show (s.start .endless (.accepting d)).held Phase.minded c + s.lentOut.count c = 0
    rw [(ha c).2.2.1]
    by_cases hf : c ∈ s.strangers
    · exact hs.untouched c hf
    · -- what is not known yet as a stranger is the connection offered, which is in no place
      have h2 := hs.hands c hf
      rcases List.mem_cons.mp hc with rfl | hc
      · have h3 := hs.stranger hd
        omega
      · exact absurd hc hf

theorem Custody.closed (hs : Custody s) {i : Nat} {d : Conn}
    {resume : Except Failure Unit → Phase × List Notice}
    (hm : s.move? policy i = some (.ask (.close d) resume)) (a : Except Failure Unit) :
    Custody ((s.goOn i (resume a).1).withClosed d) := by
  -- only what a call is about to close changes
  have same : ∀ hands : Phase → List Conn, ∀ c,
      hands (.seeking false false) = hands (.discarding d) →
      (∀ e, hands (.finished (.error e)) = hands (.refusing d)) →
      (∀ shut, hands .counting = hands (.retiring d shut)) →
      (∀ rest k, hands (sweep policy k rest).1 = hands (.sweeping d rest k)) →
      (s.goOn i (resume a).1).held hands c = s.held hands c := by
    intro hands c h1 h2 h3 h4
    exact closed_tally (n := 0) (f := fun phase => (hands phase).count c) hm a
      (congrArg (List.count c) h1) (fun e => congrArg (List.count c) (h2 e))
      (fun b => congrArg (List.count c) (h3 b)) fun rest k => congrArg (List.count c) (h4 rest k)
  have hu : ∀ c, (s.goOn i (resume a).1).held Phase.unregistered c =
      s.held Phase.unregistered c := fun c =>
    same _ c rfl (fun _ => rfl) (fun _ => rfl) fun _ _ => sweep_unregistered ..
  have ht : ∀ c, (s.goOn i (resume a).1).held Phase.takenBack c = s.held Phase.takenBack c :=
    fun c => same _ c rfl (fun _ => rfl) (fun _ => rfl) fun _ _ => sweep_takenBack ..
  have hn : ∀ c, (s.goOn i (resume a).1).held Phase.minded c = s.held Phase.minded c :=
    fun c => same _ c rfl (fun _ => rfl) (fun _ => rfl) fun _ _ => sweep_minded ..
  have hc : ∀ c, (s.goOn i (resume a).1).held Phase.claimed c = s.held Phase.claimed c :=
    fun c => same _ c rfl (fun _ => rfl) (fun _ => rfl) fun _ _ => sweep_claimed ..
  refine ⟨?_, hs.novel, ?_, ?_, hs.foreign, ?_⟩
  · intro c
    have h1 : (s.goOn i (resume a).1).held Phase.doomed c + [d].count c =
        s.held Phase.doomed c := by
      refine closed_tally hm a (Nat.zero_add _) (fun _ => Nat.zero_add _) (fun _ => Nat.zero_add _)
        fun rest k => ?_
      rw [sweep_doomed, ← count_cons_add]
      rfl
    have h2 := hs.places c
    show s.core.idle.count c + s.core.inUse.count c +
      ((s.goOn i (resume a).1).held Phase.unregistered c +
        (s.goOn i (resume a).1).held Phase.doomed c) + (d :: s.closed).count c = s.opened.count c
    rw [hu, count_cons_add c d s.closed]
    omega
  · intro c
    exact (hs.returning c).trans (ht c).symm
  · intro c hf
    show (s.goOn i (resume a).1).held Phase.minded c +
      (s.goOn i (resume a).1).held Phase.claimed c + s.lentOut.count c = s.core.inUse.count c
    rw [hn, hc]
    exact hs.hands c hf
  · intro c hf
    show (s.goOn i (resume a).1).held Phase.minded c + s.lentOut.count c = 0
    rw [hn]
    exact hs.untouched c hf

theorem Custody.step (hs : Custody s) (hr : Fair s h) (st : Step policy s h t) : Custody t := by
  cases st with
  | borrow | close =>
    refine hs.of_same rfl rfl rfl rfl rfl fun hands hh c => ?_
    refine (start_held s _ _ hands c).trans ?_
    simp only [allHands, List.mem_cons, List.not_mem_nil, or_false] at hh
    rcases hh with rfl | rfl | rfl | rfl | rfl <;> rfl
  | giveBack hl => exact hs.giveBack hl
  | offer => exact hs.offer hr.2
  | turn hm => exact hs.turn hm
  | supplied hm => exact hs.supplied hm hr.1
  | refused hm =>
    refine hs.of_same rfl rfl rfl rfl rfl fun hands hh c => ?_
    have hg := refused_held hm ‹Failure› hands c
    simp only [allHands, List.mem_cons, List.not_mem_nil, or_false] at hh
    rcases hh with rfl | rfl | rfl | rfl | rfl <;> exact hg
  | pinged hm =>
    refine hs.of_same rfl rfl rfl rfl rfl fun hands hh c => ?_
    simp only [allHands, List.mem_cons, List.not_mem_nil, or_false] at hh
    rcases hh with rfl | rfl | rfl | rfl | rfl <;>
      exact pinged_tally hm _ rfl rfl fun _ => rfl
  | closed hm => exact hs.closed hm _
  | lapse =>
    refine hs.of_same rfl rfl rfl rfl rfl fun hands hh c => ?_
    refine System.tally_expire _ _ (Steady.count ?_ c)
    simp only [allHands, List.mem_cons, List.not_mem_nil, or_false] at hh
    rcases hh with rfl | rfl | rfl | rfl | rfl
    · exact steady_unregistered
    · exact steady_doomed
    · exact steady_takenBack
    · exact steady_minded
    · exact steady_claimed

theorem Custody.leads (hs : Custody s) (ht : Leads policy Fair s t) : Custody t := by
  induction ht with
  | refl => exact hs
  | step _ hr st ih => exact ih.step hr st

theorem Reachable.custody (hs : Reachable policy Fair s) : Custody s := by
  obtain ⟨s₀, h₀, hl⟩ := hs
  exact (Custody.opening h₀).leads hl

/-- What is closed stays closed. -/
theorem Leads.closed_subset {rule : Rule} (ht : Leads policy rule s t) {c : Conn}
    (hc : c ∈ s.closed) : c ∈ t.closed := by
  induction ht with
  | refl => exact hc
  | step _ _ st ih =>
    cases st with
    | closed => exact List.mem_cons_of_mem _ ih
    | _ => exact ih

/-- A borrower holds a connection alone, and it is neither idle nor closed. -/
theorem Custody.lentOut_le (hs : Custody s) (c : Conn) :
    s.core.idle.count c + s.lentOut.count c + s.closed.count c ≤ 1 := by
  have h1 := hs.le_one c
  by_cases hf : c ∈ s.strangers
  · have h2 := hs.untouched c hf
    omega
  · have h2 := hs.hands c hf
    omega

/-- However calls interleave and whatever the supplier and the connections answer, as long as
callers give back what they borrowed, once each: every connection that was opened is in one place.
None is delivered that another caller holds or that was closed; none is idle once it was closed,
and none is closed twice. -/
theorem every_connection_in_one_place (hs : Reachable policy Fair s) :
    (∀ c ∈ s.opened, ∃ place, s.whereabouts c = [place]) ∧
    (∀ i turn c, s.move? policy i = some (.hold turn) → c ∈ (turn s.core).next.delivered →
      c ∉ s.lentOut ∧ c ∉ s.closed) ∧
    s.lentOut.Nodup ∧
    (∀ c ∈ s.closed, ∀ t, Leads policy Fair s t →
      c ∈ t.closed ∧ c ∉ t.core.idle ∧ c ∉ t.lentOut) ∧
    s.closed.Nodup := by
  have hc := hs.custody
  refine ⟨?_, ?_, ?_, ?_, ?_⟩
  · intro c ho
    have h1 := hc.places c
    rw [List.count_eq_one_of_mem hc.novel ho] at h1
    exact List.length_eq_one_iff.mp ((length_whereabouts s c).trans h1)
  · intro i turn c hm hd
    have h1 := (hc.turn hm).lentOut_le c
    have h2 : (s.hold i turn).lentOut.count c =
        (turn s.core).next.delivered.count c + s.lentOut.count c := by
      simp [lentOut, hold, Function.comp_def]
    have h3 := List.count_pos_iff.mpr hd
    have h4 : (s.hold i turn).closed = s.closed := rfl
    rw [h4] at h1
    exact ⟨List.count_eq_zero.mp (by omega), List.count_eq_zero.mp (by omega)⟩
  · refine List.nodup_iff_count.mpr fun c => ?_
    have := hc.lentOut_le c
    omega
  · intro c hx t ht
    have h1 := ht.closed_subset hx
    have h2 := (hc.leads ht).lentOut_le c
    have h3 := List.count_pos_iff.mpr h1
    exact ⟨h1, List.count_eq_zero.mp (by omega), List.count_eq_zero.mp (by omega)⟩
  · refine List.nodup_iff_count.mpr fun c => ?_
    have := hc.le_one c
    omega

/-- A connection is borrowed and given back. The pool is closed while the connection is checked, so
that it is closed too. -/
theorem every_connection_in_one_place_of_single : ∃ s, Reachable .single Fair s ∧
    s.closed = [0] ∧ (∀ c ∈ s.opened, ∃ place, s.whereabouts c = [place]) ∧
    (∀ i turn c, s.move? .single i = some (.hold turn) → c ∈ (turn s.core).next.delivered →
      c ∉ s.lentOut ∧ c ∉ s.closed) ∧
    s.lentOut.Nodup ∧
    (∀ c ∈ s.closed, ∀ t, Leads .single Fair s t →
      c ∈ t.closed ∧ c ∉ t.core.idle ∧ c ∉ t.lentOut) ∧
    s.closed.Nodup := by
  obtain ⟨s, hs, hc⟩ := reachable_of_play Fair single_justOpened
    [.borrow none, .turn 0, .turn 0, .turn 0, .giveBack (0, 0), .turn 1, .close, .turn 2,
      .pinged 1 (.ok (.flag true)), .turn 1, .closed 1 (.ok ())]
    (fun s => s.closed == [0]) (by decide)
  exact ⟨s, hs, by simpa using hc, every_connection_in_one_place hs⟩

end TrackedSystem
end RedisGateway.Pool
