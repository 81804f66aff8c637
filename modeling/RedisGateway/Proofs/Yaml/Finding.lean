import Mathlib.Data.List.TakeDrop
import Mathlib.Data.List.TakeWhile
import RedisGateway.Yaml.Document

/-!
Finding the values of a document's nodes. Every value that is found is the one that the node has by
itself, and in the end all parts of every mapping that was met were met too (`fillAll_tended`).
-/

namespace RedisGateway.Yaml

/-! ## Nodes -/

namespace Nodes

/-- The value of a node by itself: that of a collection is empty. -/
def own (ns : Nodes) (i : Nat) : Except Fault Value :=
  match (ns.tag i).hollow? with
  | some v => .ok v
  | none => ns.atom i

/-- Nodes of which the collections are mappings that merge nothing, with texts for keys. -/
structure Simple (ns : Nodes) : Prop where
  hollow : ∀ i, (ns.tag i).hollow? ≠ none → ∃ es, ns.node i = .mapping .map es
  within : ∀ i, ∀ e ∈ (ns.node i).entries, e.1 < ns.size ∧ e.2 < ns.size
  keys : ∀ i, ∀ e ∈ (ns.node i).entries, ns.tag e.1 = .str ∧ ∃ k, ns.own e.1 = .ok (.text k)

section Flatten

variable {ns : Nodes} {i : Nat}

theorem set_self {n : Node} (h : ns.node i = n) : ns.set! i n = ns := by
  subst h
  apply Array.ext_getElem?
  intro j
  by_cases hj : i = j
  · subst hj
    by_cases hi : i < ns.size <;> simp [node, hi, Array.getD]
  · simp [hj]

theorem settleKeys_texts {es : List (Nat × Nat)} (h : ∀ e ∈ es, ns.tag e.1 = .str) :
    ns.settleKeys es = ns := by
  induction es with
  | nil => rfl
  | cons e es ih =>
    have he : ¬ ns.tag e.1 = .value := by simp [h e List.mem_cons_self]
    rw [settleKeys, List.foldl_cons, if_neg he]
    exact ih fun x hx => h x (List.mem_cons_of_mem _ hx)

theorem takeMerge_texts {t : Tag} {es : List (Nat × Nat)} (hn : ns.node i = .mapping t es)
    (h : ∀ e ∈ es, ns.tag e.1 = .str) : ns.takeMerge? i = none := by
  have hother : ∀ e ∈ es, (!decide (ns.tag e.1 = .merge)) = true := fun e he => by simp [h e he]
  simp [takeMerge?, hn, List.span_eq_takeWhile_dropWhile, List.dropWhile_eq_nil_iff.mpr hother]

/-- A mapping that merges nothing stays as it is. -/
theorem flatten_simple (hns : ns.Simple) : ns.flatten i = .ok ns := by
  cases hn : ns.node i with
  | scalar t c => simp [flatten, flattenFrom, takeMerge?, hn, settle]
  | sequence t ks => simp [flatten, flattenFrom, takeMerge?, hn, settle]
  | mapping t es =>
    have htexts : ∀ e ∈ es, ns.tag e.1 = .str := fun e he =>
      (hns.keys i e (by simpa [hn, Node.entries] using he)).1
    rw [flatten, flattenFrom, takeMerge_texts hn htexts, settle, hn]
    change Except.ok (settleKeys (ns.set! i (.mapping t es)) es) = _
    rw [set_self hn, settleKeys_texts htexts]

end Flatten
end Nodes

/-! ## Runs -/

namespace Find

variable {α β : Type}

theorem bind_run (x : Find α) (f : α → Find β) (s : Harvest) :
    (x >>= f) s = (x s).bind fun r => f r.1 r.2 := rfl

theorem get_bind (f : Harvest → Find α) (s : Harvest) : (get >>= f) s = f s s := rfl

theorem set_run (s s' : Harvest) : (set s' : Find PUnit) s = .ok ((), s') := rfl

theorem modify_bind (g : Harvest → Harvest) (f : PUnit → Find α) (s : Harvest) :
    (modify g >>= f) s = f () (g s) := rfl

theorem lift_bind (x : Except Fault α) (f : α → Find β) (s : Harvest) :
    ((liftM x : Find α) >>= f) s = x.bind fun a => f a s := by
  cases x <;> rfl

theorem node_bind (i : Nat) (f : Node → Find α) (s : Harvest) :
    (node i >>= f) s = f (s.nodes.node i) s := rfl

end Find

/-! ## States -/

namespace Harvest

variable {ns : Nodes} {s s' s'' : Harvest} {i : Nat}

/-- The value of the node was found. -/
def Met (s : Harvest) (i : Nat) : Prop := (s.values.getD i none).isSome

/-- How many values are to be found, and how many collections to be filled. -/
def left (s : Harvest) : Nat := s.values.toList.countP Option.isNone + s.queue.length

/-- The values that were found are those that the nodes have by themselves. -/
structure Sound (ns : Nodes) (s : Harvest) : Prop where
  nodes : s.nodes = ns
  size : s.values.size = ns.size
  own : ∀ i v, s.values.getD i none = some v → ns.own i = .ok v
  queued : ∀ i ∈ s.queue, (ns.tag i).hollow? ≠ none

/-- What finding values does to a state. -/
structure Grown (ns : Nodes) (s s' : Harvest) : Prop where
  sound : Sound ns s'
  met : ∀ i, s.Met i → s'.Met i
  queue : ∀ i ∈ s.queue, i ∈ s'.queue
  fresh : ∀ i, s'.Met i → (ns.tag i).hollow? ≠ none → s.Met i ∨ i ∈ s'.queue
  left : s'.left ≤ s.left

theorem Grown.refl (h : Sound ns s) : Grown ns s s where
  sound := h
  met _ := id
  queue _ := id
  fresh _ hi _ := .inl hi
  left := Nat.le_refl _

theorem Grown.trans (h : Grown ns s s') (h' : Grown ns s' s'') : Grown ns s s'' where
  sound := h'.sound
  met i hi := h'.met i (h.met i hi)
  queue i hi := h'.queue i (h.queue i hi)
  fresh i hi hhollow :=
    (h'.fresh i hi hhollow).elim
      (fun hmet => (h.fresh i hmet hhollow).imp_right (h'.queue i)) .inr
  left := Nat.le_trans h'.left h.left

/-- The state after the value of a node was found. -/
def noting (s : Harvest) (i : Nat) (v : Value) : Harvest :=
  { s with values := s.values.set! i (some v)
           queue := if (s.nodes.tag i).hollow?.isSome then s.queue ++ [i] else s.queue }

theorem getD_set {xs : Array (Option Value)} {i j : Nat} {v : Value} (hi : i < xs.size) :
    (xs.set! i (some v)).getD j none = if i = j then some v else xs.getD j none := by
  by_cases hj : i = j
  · subst hj
    simp [hi]
  · simp [Array.getD_eq_getD_getElem?, hj]

theorem noting_values {v : Value} (hi : i < s.values.size) (j : Nat) :
    (s.noting i v).values.getD j none = if i = j then some v else s.values.getD j none :=
  getD_set hi

/-- One value less is to be found, and at most one collection more to be filled. -/
theorem noting_left {v : Value} (hi : i < s.values.size) (hmet : ¬ s.Met i) :
    (s.noting i v).left ≤ s.left := by
  have hi' : i < s.values.toList.length := hi
  have hget : s.values.toList[i] = none := by
    have hnone : s.values.getD i none = none := by simpa [Met] using hmet
    simpa [Array.getD, hi] using hnone
  have hpos : 0 < s.values.toList.countP Option.isNone :=
    List.countP_pos_iff.mpr ⟨_, List.getElem_mem hi', by rw [hget]; rfl⟩
  have hset : (s.noting i v).values.toList = s.values.toList.set i (some v) := by
    simp [Harvest.noting]
  have hcount : (s.noting i v).values.toList.countP Option.isNone + 1 =
      s.values.toList.countP Option.isNone := by
    rw [hset, List.countP_set hi', hget]
    simp only [Option.isNone_none, Option.isNone_some, if_true, Bool.false_eq_true, if_false]
    omega
  have hqueue : (s.noting i v).queue.length ≤ s.queue.length + 1 := by
    simp only [Harvest.noting]
    split <;> simp
  simp only [Harvest.left]
  omega

theorem Sound.noting_sound {v : Value} (h : Sound ns s) (hi : i < s.values.size)
    (hv : ns.own i = .ok v) : Sound ns (s.noting i v) := by
  obtain ⟨rfl, hsize, hown, hqueued⟩ := h
  refine ⟨rfl, by simp [Harvest.noting, hsize], ?_, ?_⟩
  · intro j w hw
    rw [noting_values hi] at hw
    split at hw
    · next hij => rw [← hij, ← Option.some.inj hw, hv]
    · exact hown j w hw
  · intro j hj
    simp only [Harvest.noting] at hj
    split at hj
    · next hhollow =>
      rcases List.mem_append.mp hj with hold | hnew
      · exact hqueued j hold
      · rw [List.mem_singleton.mp hnew]
        exact Option.isSome_iff_ne_none.mp hhollow
    · exact hqueued j hj

/-- Finding one more value: a collection waits to be filled. -/
theorem Sound.noting {v : Value} (h : Sound ns s) (hi : i < ns.size) (hmet : ¬ s.Met i)
    (hv : ns.own i = .ok v) : Grown ns s (s.noting i v) ∧ (s.noting i v).Met i := by
  rw [← h.size] at hi
  refine ⟨⟨h.noting_sound hi hv, ?_, ?_, ?_, noting_left hi hmet⟩, by simp [Met, noting_values hi]⟩
  · intro j hj
    simp only [Met, noting_values hi] at hj ⊢
    split <;> simp_all
  · intro j hj
    simp only [Harvest.noting]
    split <;> simp [hj]
  · intro j hj hhollow
    simp only [Met, noting_values hi] at hj
    split at hj
    · next hij =>
      subst hij
      exact .inr (by simp [Harvest.noting, h.nodes, Option.isSome_iff_ne_none.mpr hhollow])
    · exact .inl hj

theorem meet_met (h : s.Met i) : Find.meet i s = .ok ((), s) := by
  obtain ⟨v, hv⟩ := Option.isSome_iff_exists.mp h
  rw [Find.meet, Find.get_bind, hv]
  rfl

theorem meet_unmet (h : ¬ s.Met i) :
    Find.meet i s = (s.nodes.own i).map fun v => ((), s.noting i v) := by
  have hnone : s.values.getD i none = none := by simpa [Met] using h
  rw [Find.meet, Find.get_bind, hnone, if_pos Option.isNone_none, Nodes.own]
  cases hhollow : (s.nodes.tag i).hollow? with
  | some v => simp [Find.set_run, noting, hhollow, Except.map]
  | none =>
    simp only [Find.lift_bind, noting, hhollow]
    cases s.nodes.atom i <;> rfl

end Harvest

/-! ## Parts of finding values -/

namespace Find

open Harvest

variable {ns : Nodes}

/-- A part of finding values that succeeds if some nodes have values, and then has met these. -/
def Finds (ns : Nodes) (x : Find Unit) (is : List Nat) : Prop :=
  ∀ s, Sound ns s →
    (∀ s', x s = .ok ((), s') → Grown ns s s' ∧ ∀ i ∈ is, s'.Met i) ∧
      ((∀ i ∈ is, ∃ v, ns.own i = .ok v) → ∃ s', x s = .ok ((), s'))

theorem finds_nothing : Finds ns (pure ()) [] := fun s hs =>
  ⟨fun s' h => by
    obtain rfl : s = s' := congrArg Prod.snd (Except.ok.inj h)
    exact ⟨.refl hs, fun i hi => nomatch hi⟩, fun _ => ⟨s, rfl⟩⟩

theorem Finds.andThen {x y : Find Unit} {is js : List Nat} (hx : Finds ns x is)
    (hy : Finds ns y js) : Finds ns (x >>= fun _ => y) (is ++ js) := by
  intro s hs
  obtain ⟨hsound, htotal⟩ := hx s hs
  constructor
  · intro s'' h
    rw [bind_run] at h
    cases hrun : x s with
    | error f => simp [hrun, Except.bind] at h
    | ok r =>
      obtain ⟨_, s'⟩ := r
      obtain ⟨hgrown, hmet⟩ := hsound s' hrun
      obtain ⟨hgrown', hmet'⟩ := (hy s' hgrown.sound).1 s'' (by simpa [hrun, Except.bind] using h)
      refine ⟨hgrown.trans hgrown', fun i hi => ?_⟩
      exact (List.mem_append.mp hi).elim (fun hi => hgrown'.met i (hmet i hi)) (hmet' i)
  · intro hown
    obtain ⟨s', hrun⟩ := htotal fun i hi => hown i (List.mem_append_left _ hi)
    obtain ⟨s'', hrun'⟩ := (hy s' (hsound s' hrun).1.sound).2 fun i hi =>
      hown i (List.mem_append_right _ hi)
    exact ⟨s'', by simp [bind_run, hrun, Except.bind, hrun']⟩

theorem finds_meet {i : Nat} (hi : i < ns.size) : Finds ns (meet i) [i] := by
  intro s hs
  have hnodes := hs.nodes
  by_cases hmet : s.Met i
  · rw [meet_met hmet]
    refine ⟨fun s' h => ?_, fun _ => ⟨s, rfl⟩⟩
    obtain rfl : s = s' := congrArg Prod.snd (Except.ok.inj h)
    exact ⟨.refl hs, by simpa using hmet⟩
  · rw [meet_unmet hmet, hnodes]
    cases hown : ns.own i with
    | error f => exact ⟨fun s' h => by simp [Except.map] at h, by simp [hown]⟩
    | ok v =>
      obtain ⟨hgrown, hself⟩ := hs.noting hi hmet hown
      refine ⟨fun s' h => ?_, fun _ => ⟨_, rfl⟩⟩
      obtain rfl : s.noting i v = s' := congrArg Prod.snd (Except.ok.inj h)
      exact ⟨hgrown, by simpa using hself⟩

/-- The check that the key of an entry is usable as one. -/
theorem meetField_eq {e : Nat × Nat} {k : String} (hkey : ns.own e.1 = .ok (.text k)) {s : Harvest}
    (he : e.1 < ns.size) (hs : Sound ns s) :
    meetField e s = (meet e.1 >>= fun _ => meet e.2) s := by
  rw [bind_run, meetField, bind_run]
  cases hrun : meet e.1 s with
  | error f => rfl
  | ok r =>
    obtain ⟨_, s'⟩ := r
    obtain ⟨hgrown, -⟩ := (finds_meet he s hs).1 s' hrun
    have hfixed : (s'.values.getD e.1 none).any (!·.isFixed) = false := by
      cases hv : s'.values.getD e.1 none with
      | none => rfl
      | some v =>
        have := hgrown.sound.own e.1 v hv
        rw [hkey] at this
        obtain rfl := Except.ok.inj this
        rfl
    simp only [Except.bind, get_bind, hfixed]
    rfl

theorem finds_field {e : Nat × Nat} {k : String} (hkey : ns.own e.1 = .ok (.text k))
    (he : e.1 < ns.size ∧ e.2 < ns.size) : Finds ns (meetField e) [e.1, e.2] := by
  intro s hs
  rw [meetField_eq hkey he.1 hs]
  exact (finds_meet he.1).andThen (finds_meet he.2) s hs

/-- The numbers of the parts of a node. -/
def parts (n : Node) : List Nat := n.entries.flatMap fun e => [e.1, e.2]

theorem finds_fields {es : List (Nat × Nat)}
    (hkeys : ∀ e ∈ es, ∃ k, ns.own e.1 = .ok (.text k))
    (hwithin : ∀ e ∈ es, e.1 < ns.size ∧ e.2 < ns.size) :
    Finds ns (es.forM meetField) (es.flatMap fun e => [e.1, e.2]) := by
  induction es with
  | nil => exact finds_nothing
  | cons e es ih =>
    obtain ⟨k, hk⟩ := hkeys e List.mem_cons_self
    have hrest := ih (fun x hx => hkeys x (List.mem_cons_of_mem _ hx))
      fun x hx => hwithin x (List.mem_cons_of_mem _ hx)
    exact (finds_field hk (hwithin e List.mem_cons_self)).andThen hrest

theorem finds_fill {i : Nat} (hns : ns.Simple) (hi : (ns.tag i).hollow? ≠ none) :
    Finds ns (fill i) (parts (ns.node i)) := by
  obtain ⟨es, hn⟩ := hns.hollow i hi
  have hkeys : ∀ e ∈ es, ∃ k, ns.own e.1 = .ok (.text k) := fun e he =>
    (hns.keys i e (by simpa [hn, Node.entries] using he)).2
  have hwithin : ∀ e ∈ es, e.1 < ns.size ∧ e.2 < ns.size := fun e he =>
    hns.within i e (by simpa [hn, Node.entries] using he)
  intro s hs
  have hrun : fill i s = es.forM meetField s := by
    obtain ⟨rfl, -⟩ := hs
    simp [fill, node_bind, get_bind, lift_bind, modify_bind, hn, Nodes.flatten_simple hns,
      Except.bind, Node.entries]
  rw [hrun, hn, parts]
  exact finds_fields hkeys hwithin s hs

/-! ## All values -/

/-- Every collection that was met is to be filled, or all its parts were met. -/
def Tended (ns : Nodes) (s : Harvest) : Prop :=
  ∀ i, s.Met i → (ns.tag i).hollow? ≠ none → i ∈ s.queue ∨ ∀ j ∈ parts (ns.node i), s.Met j

theorem Tended.fill {i : Nat} {queue : List Nat} {s s' : Harvest} (h : Tended ns s)
    (hqueue : s.queue = i :: queue) (hgrown : Grown ns { s with queue } s')
    (hparts : ∀ j ∈ parts (ns.node i), s'.Met j) : Tended ns s' := by
  intro j hj hhollow
  rcases hgrown.fresh j hj hhollow with hold | hnew
  · rcases h j hold hhollow with hwaits | hdone
    · rw [hqueue] at hwaits
      rcases List.mem_cons.mp hwaits with rfl | hlater
      · exact .inr hparts
      · exact .inl (hgrown.queue j hlater)
    · exact .inr fun k hk => hgrown.met k (hdone k hk)
  · exact .inl hnew

theorem Sound.pop {i : Nat} {queue : List Nat} {s : Harvest} (h : Sound ns s)
    (hqueue : s.queue = i :: queue) : Sound ns { s with queue } where
  nodes := h.nodes
  size := h.size
  own := h.own
  queued j hj := h.queued j (by simp [hqueue, hj])

theorem fillAll_cons {fuel i : Nat} {queue : List Nat} {s : Harvest}
    (hqueue : s.queue = i :: queue) :
    fillAll (fuel + 1) s = (Find.fill i >>= fun _ => fillAll fuel) { s with queue } := by
  rw [fillAll, get_bind, hqueue]
  rfl

theorem fillAll_nil {fuel : Nat} {s : Harvest} (hqueue : s.queue = []) :
    fillAll fuel s = .ok ((), s) := by
  cases fuel with
  | zero => rfl
  | succ fuel =>
    rw [fillAll, get_bind, hqueue]
    rfl

/-- With enough steps all parts of every collection are met. -/
theorem fillAll_tended (hns : ns.Simple) (fuel : Nat) {s s' : Harvest} (hs : Sound ns s)
    (htended : Tended ns s) (hfuel : s.left < fuel) (h : fillAll fuel s = .ok ((), s')) :
    Sound ns s' ∧ Tended ns s' ∧ s'.queue = [] ∧ ∀ i, s.Met i → s'.Met i := by
  induction fuel generalizing s with
  | zero => omega
  | succ fuel ih =>
    cases hqueue : s.queue with
    | nil =>
      rw [fillAll_nil hqueue] at h
      obtain rfl : s = s' := congrArg Prod.snd (Except.ok.inj h)
      exact ⟨hs, htended, hqueue, fun _ => id⟩
    | cons i queue =>
      have hhollow := hs.queued i (by simp [hqueue])
      have hfill := (finds_fill hns hhollow _ (Sound.pop hs hqueue)).1
      rw [fillAll_cons hqueue, bind_run] at h
      cases hrun : Find.fill i { s with queue } with
      | error f => simp [hrun, Except.bind] at h
      | ok r =>
        obtain ⟨_, s1⟩ := r
        obtain ⟨hgrown, hparts⟩ := hfill s1 hrun
        have hleft : s1.left < fuel := by
          have hpop : Harvest.left { s with queue } + 1 = s.left := by
            simp [Harvest.left, hqueue, Nat.add_assoc]
          have := hgrown.left
          omega
        obtain ⟨hsound, htended', hempty, hmet⟩ := ih hgrown.sound
          (htended.fill hqueue hgrown hparts) hleft (by simpa [hrun, Except.bind] using h)
        exact ⟨hsound, htended', hempty, fun j hj => hmet j (hgrown.met j hj)⟩

/-- Values are found if all nodes have them. -/
theorem fillAll_total (hns : ns.Simple) (hown : ∀ i, ∃ v, ns.own i = .ok v) (fuel : Nat)
    {s : Harvest} (hs : Sound ns s) : ∃ s', fillAll fuel s = .ok ((), s') := by
  induction fuel generalizing s with
  | zero => exact ⟨s, rfl⟩
  | succ fuel ih =>
    cases hqueue : s.queue with
    | nil => exact ⟨s, fillAll_nil hqueue⟩
    | cons i queue =>
      have hhollow := hs.queued i (by simp [hqueue])
      obtain ⟨hsound, htotal⟩ := finds_fill hns hhollow _ (Sound.pop hs hqueue)
      obtain ⟨s1, hrun⟩ := htotal fun j _ => hown j
      obtain ⟨s2, hrest⟩ := ih (hsound s1 hrun).1.sound
      exact ⟨s2, by rw [fillAll_cons hqueue, bind_run, hrun]; exact hrest⟩

end Find

/-! ## Values of documents -/

namespace Harvest

variable {ns : Nodes}

/-- The state in which a node and with every collection all its parts were met. -/
structure Complete (ns : Nodes) (root : Nat) (s : Harvest) : Prop where
  sound : Sound ns s
  root : s.Met root
  parts : ∀ i, s.Met i → (ns.tag i).hollow? ≠ none → ∀ j ∈ Find.parts (ns.node i), s.Met j

theorem Complete.own {root i : Nat} {s : Harvest} (h : Complete ns root s) (hi : s.Met i) :
    ∃ v, s.values.getD i none = some v ∧ ns.own i = .ok v := by
  obtain ⟨v, hv⟩ := Option.isSome_iff_exists.mp hi
  exact ⟨v, hv, h.sound.own i v hv⟩

end Harvest

namespace Document

open Find Harvest

variable {ns : Nodes} {root : Nat}

/-- The state before any value was found. -/
def start (ns : Nodes) : Harvest := { nodes := ns, values := Array.replicate ns.size none }

theorem start_unmet (i : Nat) : ¬ (start ns).Met i := by
  simp only [Met, start, Array.getD_eq_getD_getElem?, Array.getElem?_replicate]
  split <;> simp

theorem start_sound : Sound ns (start ns) where
  nodes := rfl
  size := by simp [start]
  own i v hv := absurd (Option.isSome_iff_exists.mpr ⟨v, hv⟩) (start_unmet i)
  queued i hi := by simp [start] at hi

theorem start_left : (start ns).left = ns.size := by
  simp [start, left, List.countP_replicate]

theorem value_eq : value { root := some root, nodes := ns } =
    ((meet root >>= fun _ => fillAll (ns.size + 1)) (start ns)).map
      fun r => r.2.value depth root := by
  change ((meet root >>= fun _ => fillAll (ns.size + 1)) (start ns)).bind
    (fun r => .ok (r.2.value depth root)) = _
  cases (meet root >>= fun _ => fillAll (ns.size + 1)) (start ns) <;> rfl

/-- The value of a document is that of its root, once the values of all nodes were found. -/
theorem value_ok (hns : ns.Simple) (hroot : root < ns.size) {v : Value}
    (h : value { root := some root, nodes := ns } = .ok v) :
    ∃ s, Complete ns root s ∧ s.value depth root = v := by
  rw [value_eq, bind_run] at h
  cases hmeet : meet root (start ns) with
  | error f => simp [hmeet, Except.bind, Except.map] at h
  | ok r =>
    obtain ⟨_, s1⟩ := r
    cases hfill : fillAll (ns.size + 1) s1 with
    | error f => simp [hmeet, hfill, Except.bind, Except.map] at h
    | ok r =>
      obtain ⟨_, s2⟩ := r
      obtain ⟨hgrown, hmet⟩ := (finds_meet hroot _ start_sound).1 s1 hmeet
      have htended : Tended ns s1 := fun i hi hhollow =>
        .inl ((hgrown.fresh i hi hhollow).resolve_left (start_unmet i))
      have hleft : s1.left < ns.size + 1 := by
        have := hgrown.left
        rw [start_left] at this
        omega
      obtain ⟨hsound, htended', hempty, hkept⟩ :=
        fillAll_tended hns _ hgrown.sound htended hleft hfill
      refine ⟨s2, ⟨hsound, hkept root (hmet root (by simp)), fun i hi hhollow => ?_⟩, ?_⟩
      · exact (htended' i hi hhollow).resolve_left (by simp [hempty])
      · simpa [hmeet, hfill, Except.bind, Except.map] using h

theorem value_total (hns : ns.Simple) (hroot : root < ns.size)
    (hown : ∀ i, ∃ v, ns.own i = .ok v) :
    ∃ v, value { root := some root, nodes := ns } = .ok v := by
  obtain ⟨hsound, htotal⟩ := finds_meet hroot _ (start_sound : Sound ns _)
  obtain ⟨s1, hmeet⟩ := htotal fun i _ => hown i
  obtain ⟨s2, hfill⟩ := fillAll_total hns hown (ns.size + 1) (hsound s1 hmeet).1.sound
  exact ⟨_, by rw [value_eq, bind_run, hmeet, Except.bind, hfill]; rfl⟩

end Document
end RedisGateway.Yaml
