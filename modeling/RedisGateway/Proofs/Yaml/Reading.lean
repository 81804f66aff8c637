import RedisGateway.Proofs.Yaml.Building
import RedisGateway.Proofs.Yaml.Finding

/-!
The value that is read from the text of a record: the record of the values of its scalars, if all
of them have one (`read_record`).
-/

namespace RedisGateway.Yaml

/-! ## Scalars -/

/-- The value of a scalar. -/
def Said.value (x : Said) : Except Fault Value :=
  match x.tag.atom? with
  | some value => value (.ofList x.content)
  | none => .error constructionFault

/-- The value of a scalar that has one. -/
def Said.worth (x : Said) : Value :=
  match x.value with
  | .ok v => v
  | .error _ => .none

theorem Said.value_eq {x : Said} {v : Value} (h : x.value = .ok v) : x.worth = v := by
  rw [worth, h]

/-- A plain scalar never stands for a collection. -/
theorem Tag.hollow_ofPlain (cs : List Char) : (Tag.ofPlain cs).hollow? = none := by
  have hall : ∀ f ∈ Tag.forms, f.2.hollow? = none := by decide
  rw [Tag.ofPlain]
  cases hfind : Tag.forms.find? fun f => Tag.hasForm f.1 cs with
  | none => rfl
  | some f => exact hall f (List.mem_of_find?_eq_some hfind)

theorem Said.hollow_tag (x : Said) : x.tag.hollow? = none := by
  rw [tag]
  split
  · exact Tag.hollow_ofPlain _
  · rfl

section Own

variable {ns : Nodes} {i : Nat} {x : Said}

theorem Nodes.own_said (h : ns.node i = x.node) : ns.own i = x.value := by
  have htag : ns.tag i = x.tag := by rw [Nodes.tag, h]; rfl
  have hcontent : ns.content (ns.size + 1) i = .ok (.ofList x.content) := by
    rw [Nodes.content, h]
    rfl
  rw [Nodes.own, htag, x.hollow_tag, Nodes.atom, htag, Said.value]
  cases x.tag.atom? with
  | none => rfl
  | some value =>
    simp only [hcontent, h, bind, Except.bind]
    rfl

end Own

/-- A key that is read as a text. -/
def IsTextKey (k : List Char) : Prop := Tag.ofPlain k = .str

instance (k : List Char) : Decidable (IsTextKey k) := inferInstanceAs (Decidable (_ = _))

theorem Value.ofPoints_chars (cs : List Char) :
    Value.ofPoints (cs.map Char.toNat) = .text (String.ofList cs) := by
  have hall : Text.allChars (cs.map Char.toNat) = true := by
    simp only [Text.allChars, List.all_map, List.all_eq_true, Function.comp_apply,
      decide_eq_true_eq]
    exact fun ch _ => ch.valid
  rw [Value.ofPoints, if_pos hall, Text.ofPoints, List.map_map]
  have hid : Text.charAt ∘ Char.toNat = id := funext Text.charAt_toNat
  rw [hid, List.map_id]

/-- The value of a text. -/
theorem Said.value_text {x : Said} (h : x.tag = .str) :
    x.value = .ok (.text (String.ofList x.content)) := by
  rw [value, h]
  exact congrArg Except.ok (Value.ofPoints_chars x.content)

/-! ## Records -/

/-- The scalars of a value. -/
def Part.scalars : Part → List Said
  | .scalar x => [x]
  | .group ls => ls.map (·.2)

/-- The keys of a value. -/
def Part.keys : Part → List (List Char)
  | .scalar _ => []
  | .group ls => ls.map (·.1)

/-- All keys of a record are read as texts. -/
def TextKeys (es : List (List Char × Part)) : Prop :=
  ∀ e ∈ es, ∀ k ∈ e.1 :: e.2.keys, IsTextKey k

/-- The entries of scalars under keys. -/
def leavesEntries (ls : List (List Char × Said)) : List (Value × Value) :=
  ls.map fun l => (.text (String.ofList l.1), l.2.worth)

def Part.worth : Part → Value
  | .scalar x => x.worth
  | .group ls => .recordOf (leavesEntries ls)

/-- The value of a record. -/
def recordWorth (es : List (List Char × Part)) : Value :=
  .recordOf (es.map fun e => (.text (String.ofList e.1), e.2.worth))

/-! ## Nodes of a record -/

/-- The nodes hold these ones from a number on. -/
def Laid (ns : Nodes) (n : Nat) (l : List Node) : Prop :=
  ∃ before behind, ns.toList = before ++ (l ++ behind) ∧ before.length = n

section Laid

variable {ns : Nodes} {n : Nat} {a : Node} {l l' : List Node}

theorem Laid.head (h : Laid ns n (a :: l)) : ns.node n = a ∧ n < ns.size := by
  obtain ⟨before, behind, hns, rfl⟩ := h
  have hget : ns[before.length]? = some a := by
    rw [← Array.getElem?_toList, hns]
    simp
  obtain ⟨hlt, -⟩ := Array.getElem?_eq_some_iff.mp hget
  exact ⟨by simp [Nodes.node, hget], hlt⟩

theorem Laid.tail (h : Laid ns n (a :: l)) : Laid ns (n + 1) l := by
  obtain ⟨before, behind, hns, rfl⟩ := h
  exact ⟨before ++ [a], behind, by simp [hns], by simp⟩

theorem Laid.left (h : Laid ns n (l ++ l')) : Laid ns n l := by
  obtain ⟨before, behind, hns, rfl⟩ := h
  exact ⟨before, l' ++ behind, by simp [hns], rfl⟩

theorem Laid.right (h : Laid ns n (l ++ l')) : Laid ns (n + l.length) l' := by
  obtain ⟨before, behind, hns, rfl⟩ := h
  exact ⟨before ++ l, behind, by simp [hns], by simp⟩

theorem laid_all (l : List Node) : Laid l.toArray 0 l := ⟨[], [], by simp, rfl⟩

end Laid

/-- An entry whose parts are nodes, the first of which is a key that is a text. -/
def Usable (ns : Nodes) (e : Nat × Nat) : Prop :=
  e.1 < ns.size ∧ e.2 < ns.size ∧ ∃ k, IsTextKey k ∧ ns.node e.1 = keyNode k

/-- A node of a record: one of some scalars, another scalar that has a value, or a mapping. -/
def Fits (ns : Nodes) (xs : List Said) (a : Node) : Prop :=
  (∃ x : Said, (x ∈ xs ∨ ∃ v, x.value = .ok v) ∧ a = x.node) ∨
    ∃ es, a = .mapping .map es ∧ ∀ e ∈ es, Usable ns e

theorem Fits.mono {ns : Nodes} {xs ys : List Said} {a : Node} (h : Fits ns xs a)
    (hsub : ∀ x ∈ xs, x ∈ ys) : Fits ns ys a :=
  h.imp_left fun ⟨x, hx, ha⟩ => ⟨x, hx.imp_left (hsub x), ha⟩

theorem value_key {k : List Char} (h : IsTextKey k) :
    Said.value ⟨k, true⟩ = .ok (.text (String.ofList k)) := Said.value_text h

section Nodes

variable {ns : Nodes} {n : Nat}

theorem usable_leaves {ls : List (List Char × Said)} (h : Laid ns n (leavesNodes ls))
    (hkeys : ∀ l ∈ ls, IsTextKey l.1) : ∀ e ∈ pairsFrom n ls.length, Usable ns e := by
  induction ls generalizing n with
  | nil => exact nofun
  | cons l ls ih =>
    have hl : Laid ns n (keyNode l.1 :: l.2.node :: leavesNodes ls) := h
    intro e he
    rcases List.mem_cons.mp he with rfl | he
    · exact ⟨hl.head.2, hl.tail.head.2, l.1, hkeys l List.mem_cons_self, hl.head.1⟩
    · exact ih hl.tail.tail (fun x hx => hkeys x (List.mem_cons_of_mem _ hx)) e he

theorem fits_leaves {ls : List (List Char × Said)} (hkeys : ∀ l ∈ ls, IsTextKey l.1) :
    ∀ a ∈ leavesNodes ls, Fits ns (ls.map (·.2)) a := by
  intro a ha
  obtain ⟨l, hl, ha⟩ := List.mem_flatMap.mp ha
  rcases List.mem_pair.mp ha with rfl | rfl
  · exact .inl ⟨_, .inr ⟨_, value_key (hkeys l hl)⟩, rfl⟩
  · exact .inl ⟨_, .inl (List.mem_map.mpr ⟨l, hl, rfl⟩), rfl⟩

theorem fits_part {p : Part} (h : Laid ns n (p.nodes n)) (hkeys : ∀ k ∈ p.keys, IsTextKey k) :
    n < ns.size ∧ ∀ a ∈ p.nodes n, Fits ns p.scalars a := by
  cases p with
  | scalar x =>
    refine ⟨h.head.2, fun a ha => .inl ⟨x, .inl (by simp [Part.scalars]), ?_⟩⟩
    simpa [Part.nodes] using ha
  | group ls =>
    have hkeys' : ∀ l ∈ ls, IsTextKey l.1 := fun l hl =>
      hkeys l.1 (List.mem_map.mpr ⟨l, hl, rfl⟩)
    refine ⟨h.head.2, fun a ha => ?_⟩
    rcases List.mem_cons.mp ha with rfl | ha
    · exact .inr ⟨_, rfl, usable_leaves h.tail hkeys'⟩
    · exact fits_leaves hkeys' a ha

theorem fits_entries {es : List (List Char × Part)} (h : Laid ns n (entriesNodes n es))
    (hkeys : TextKeys es) :
    (∀ e ∈ entryPairs n es, Usable ns e) ∧
      ∀ a ∈ entriesNodes n es, Fits ns (es.flatMap (·.2.scalars)) a := by
  induction es generalizing n with
  | nil => exact ⟨nofun, nofun⟩
  | cons e es ih =>
    obtain ⟨hkey, hinner⟩ := List.forall_mem_cons.mp (hkeys e List.mem_cons_self)
    have hentry : Laid ns n (keyNode e.1 :: e.2.nodes (n + 1)) := Laid.left h
    obtain ⟨hlt, hpart⟩ := fits_part hentry.tail hinner
    obtain ⟨husable, hfits⟩ := ih (Laid.right h) fun x hx => hkeys x (List.mem_cons_of_mem _ hx)
    constructor
    · intro x hx
      rcases List.mem_cons.mp hx with rfl | hx
      · exact ⟨hentry.head.2, hlt, e.1, hkey, hentry.head.1⟩
      · exact husable x hx
    · intro a ha
      rcases List.mem_append.mp ha with ha | ha
      · rcases List.mem_cons.mp ha with rfl | ha
        · exact .inl ⟨_, .inr ⟨_, value_key hkey⟩, rfl⟩
        · exact (hpart a ha).mono fun x hx => by simp [hx]
      · exact (hfits a ha).mono fun x hx => by
          rw [List.flatMap_cons]
          exact List.mem_append_right _ hx

end Nodes

section Record

variable {es : List (List Char × Part)}

theorem laid_record (es : List (List Char × Part)) :
    Laid (recordNodes es).toArray 0 (.mapping .map (entryPairs 1 es) :: entriesNodes 1 es) :=
  laid_all _

/-- Every node that a number can stand for. -/
theorem fits_record (hkeys : TextKeys es) (i : Nat) :
    Fits (recordNodes es).toArray (es.flatMap (·.2.scalars))
      (Nodes.node (recordNodes es).toArray i) := by
  obtain ⟨husable, hfits⟩ := fits_entries (laid_record es).tail hkeys
  by_cases hi : i < (recordNodes es).length
  · have hmem : Nodes.node (recordNodes es).toArray i ∈ recordNodes es := by
      simp [Nodes.node, Array.getD, hi]
    rcases List.mem_cons.mp hmem with hroot | hmem
    · exact .inr ⟨_, hroot, husable⟩
    · exact hfits _ hmem
  · have hempty : Nodes.node (recordNodes es).toArray i = .empty := by
      simp [Nodes.node, Array.getD, hi]
    exact .inl ⟨⟨[], true⟩, .inr ⟨.none, rfl⟩, hempty⟩

theorem simple_record (hkeys : TextKeys es) : Nodes.Simple (recordNodes es).toArray := by
  have hentries : ∀ i, ∀ e ∈ (Nodes.node (recordNodes es).toArray i).entries,
      Usable (recordNodes es).toArray e := by
    intro i e he
    obtain ⟨x, -, hx⟩ | ⟨ps, hps, husable⟩ := fits_record hkeys i
    · simp [hx, Said.node, Node.entries] at he
    · exact husable e (by simpa [hps, Node.entries] using he)
  refine ⟨fun i hi => ?_, fun i e he => ?_, fun i e he => ?_⟩
  · obtain ⟨x, -, hx⟩ | ⟨ps, hps, -⟩ := fits_record hkeys i
    · exact absurd (x.hollow_tag) (by simpa [Nodes.tag, hx, Said.node, Node.tag] using hi)
    · exact ⟨ps, hps⟩
  · obtain ⟨hkey, hvalue, -⟩ := hentries i e he
    exact ⟨hkey, hvalue⟩
  · obtain ⟨-, -, k, hk, hnode⟩ := hentries i e he
    refine ⟨by rw [Nodes.tag, hnode]; exact hk, String.ofList k, ?_⟩
    rw [Nodes.own_said hnode, value_key hk]

/-- All nodes have values if the scalars do. -/
theorem own_record (hkeys : TextKeys es)
    (h : ∀ x ∈ es.flatMap (·.2.scalars), ∃ v, x.value = .ok v) (i : Nat) :
    ∃ v, Nodes.own (recordNodes es).toArray i = .ok v := by
  obtain ⟨x, hx, hnode⟩ | ⟨ps, hps, -⟩ := fits_record hkeys i
  · obtain ⟨v, hv⟩ := hx.elim (h x) id
    exact ⟨v, by rw [Nodes.own_said hnode, hv]⟩
  · exact ⟨.record [], by rw [Nodes.own, Nodes.tag, hps]; rfl⟩

end Record

/-! ## Values of a record -/

section Values

open Harvest

variable {ns : Nodes} {root n d : Nat} {s : Harvest}

theorem value_said {x : Said} (hs : Complete ns root s) (hmet : s.Met n)
    (hnode : ns.node n = x.node) : x.value = .ok (s.value d n) := by
  obtain ⟨v, hv, hown⟩ := hs.own hmet
  have hvalue : s.value d n = v := by
    cases d with
    | zero => rw [Harvest.value, hv]; rfl
    | succ d => rw [Harvest.value, hs.sound.nodes, hnode, hv]; rfl
  rw [hvalue, ← hown, Nodes.own_said hnode]

theorem worth_said {x : Said} (hs : Complete ns root s) (hmet : s.Met n)
    (hnode : ns.node n = x.node) : x.value = .ok x.worth ∧ s.value d n = x.worth := by
  have hvalue := value_said (d := d) hs hmet hnode
  rw [Said.value_eq hvalue]
  exact ⟨hvalue, rfl⟩

theorem worth_key {k : List Char} (hs : Complete ns root s) (hmet : s.Met n)
    (hnode : ns.node n = keyNode k) (hk : IsTextKey k) :
    s.value d n = .text (String.ofList k) :=
  Except.ok.inj ((value_said hs hmet hnode).symm.trans (value_key hk))

theorem worth_leaves {ls : List (List Char × Said)} (hs : Complete ns root s)
    (h : Laid ns n (leavesNodes ls)) (hkeys : ∀ l ∈ ls, IsTextKey l.1)
    (hmet : ∀ e ∈ pairsFrom n ls.length, s.Met e.1 ∧ s.Met e.2) :
    (∀ l ∈ ls, l.2.value = .ok l.2.worth) ∧
      (pairsFrom n ls.length).map (fun e => (s.value d e.1, s.value d e.2)) = leavesEntries ls := by
  induction ls generalizing n with
  | nil => exact ⟨nofun, rfl⟩
  | cons l ls ih =>
    have hl : Laid ns n (keyNode l.1 :: l.2.node :: leavesNodes ls) := h
    obtain ⟨hkey, hvalue⟩ := hmet (n, n + 1) List.mem_cons_self
    obtain ⟨hvalues, hpairs⟩ := ih hl.tail.tail (fun x hx => hkeys x (List.mem_cons_of_mem _ hx))
      fun e he => hmet e (List.mem_cons_of_mem _ he)
    obtain ⟨hworth, hfound⟩ := worth_said (d := d) hs hvalue hl.tail.head.1
    constructor
    · exact List.forall_mem_cons.mpr ⟨hworth, hvalues⟩
    · have hfirst := worth_key (d := d) hs hkey hl.head.1 (hkeys l List.mem_cons_self)
      simp only [List.length_cons, pairsFrom, List.map_cons, hfirst, hfound, hpairs, leavesEntries]

/-- All parts of a mapping that was met were met. -/
theorem met_parts {ps : List (Nat × Nat)} (hs : Complete ns root s) (hmet : s.Met n)
    (hnode : ns.node n = .mapping .map ps) : ∀ e ∈ ps, s.Met e.1 ∧ s.Met e.2 := by
  have hparts := hs.parts n hmet (by simp [Nodes.tag, hnode, Node.tag, Tag.hollow?])
  rw [hnode] at hparts
  intro e he
  exact ⟨hparts _ (List.mem_flatMap.mpr ⟨e, he, by simp⟩),
    hparts _ (List.mem_flatMap.mpr ⟨e, he, by simp⟩)⟩

theorem worth_part {p : Part} (hs : Complete ns root s) (h : Laid ns n (p.nodes n))
    (hkeys : ∀ k ∈ p.keys, IsTextKey k) (hmet : s.Met n) :
    (∀ x ∈ p.scalars, x.value = .ok x.worth) ∧ s.value (d + 1) n = p.worth := by
  cases p with
  | scalar x =>
    obtain ⟨hworth, hfound⟩ := worth_said (d := d + 1) hs hmet h.head.1
    exact ⟨by simpa [Part.scalars] using hworth, hfound⟩
  | group ls =>
    have hkeys' : ∀ l ∈ ls, IsTextKey l.1 := fun l hl =>
      hkeys l.1 (List.mem_map.mpr ⟨l, hl, rfl⟩)
    obtain ⟨hvalues, hpairs⟩ := worth_leaves (d := d) hs h.tail hkeys'
      (met_parts hs hmet h.head.1)
    constructor
    · exact List.forall_mem_map.mpr hvalues
    · rw [Harvest.value, hs.sound.nodes, h.head.1]
      exact congrArg Value.recordOf hpairs

theorem worth_entries {es : List (List Char × Part)} (hs : Complete ns root s)
    (h : Laid ns n (entriesNodes n es)) (hkeys : TextKeys es)
    (hmet : ∀ e ∈ entryPairs n es, s.Met e.1 ∧ s.Met e.2) :
    (∀ x ∈ es.flatMap (·.2.scalars), x.value = .ok x.worth) ∧
      (entryPairs n es).map (fun e => (s.value (d + 1) e.1, s.value (d + 1) e.2)) =
        es.map fun e => (.text (String.ofList e.1), e.2.worth) := by
  induction es generalizing n with
  | nil => exact ⟨nofun, rfl⟩
  | cons e es ih =>
    obtain ⟨hkey, hinner⟩ := List.forall_mem_cons.mp (hkeys e List.mem_cons_self)
    have hentry : Laid ns n (keyNode e.1 :: e.2.nodes (n + 1)) := Laid.left h
    obtain ⟨hmetKey, hmetPart⟩ := hmet (n, n + 1) List.mem_cons_self
    obtain ⟨hvalues, hworth⟩ := worth_part (d := d) hs hentry.tail hinner hmetPart
    obtain ⟨hrest, hpairs⟩ := ih (Laid.right h)
      (fun x hx => hkeys x (List.mem_cons_of_mem _ hx))
      fun x hx => hmet x (List.mem_cons_of_mem _ hx)
    have hfirst := worth_key (d := d + 1) hs hmetKey hentry.head.1 hkey
    constructor
    · intro x hx
      rw [List.flatMap_cons] at hx
      exact (List.mem_append.mp hx).elim (hvalues x) (hrest x)
    · simp only [entryPairs, List.map_cons, hfirst, hworth, hpairs]

end Values

/-- The value of a record's document is the record of its values, if all its scalars have one. -/
theorem value_record {es : List (List Char × Part)} {v : Value} (hkeys : TextKeys es) :
    Document.value { root := some 0, nodes := (recordNodes es).toArray } = .ok v ↔
      (∀ x ∈ es.flatMap (·.2.scalars), x.value = .ok x.worth) ∧ v = recordWorth es := by
  have hlaid := laid_record es
  have hsound : ∀ {w},
      Document.value { root := some 0, nodes := (recordNodes es).toArray } = .ok w →
      (∀ x ∈ es.flatMap (·.2.scalars), x.value = .ok x.worth) ∧ w = recordWorth es := by
    intro w h
    obtain ⟨s, hs, rfl⟩ := Document.value_ok (simple_record hkeys) hlaid.head.2 h
    obtain ⟨hvalues, hpairs⟩ := worth_entries (d := 2) hs hlaid.tail hkeys
      (met_parts hs hs.root hlaid.head.1)
    refine ⟨hvalues, ?_⟩
    rw [Document.depth, Harvest.value, hs.sound.nodes, hlaid.head.1]
    exact congrArg Value.recordOf hpairs
  refine ⟨hsound, ?_⟩
  rintro ⟨hvalues, rfl⟩
  obtain ⟨w, hw⟩ := Document.value_total (simple_record hkeys) hlaid.head.2
    (own_record hkeys fun x hx => ⟨_, hvalues x hx⟩)
  rw [hw, (hsound hw).2]

/-- The text of a record is read as the record of its values, if all its scalars have one. -/
theorem read_record {es : List (List Char × Part)} {T : List Char} {v : Value}
    (hT : RecordText es T) (hne : es ≠ []) (hkeys : TextKeys es) :
    read (String.ofList T) = .ok v ↔
      (∀ x ∈ es.flatMap (·.2.scalars), x.value = .ok x.worth) ∧ v = recordWorth es := by
  have hallowed : T.all isAllowed = true := by
    refine List.all_eq_true.mpr fun ch hch => ?_
    have hch := hT.writable ch hch
    rw [isWritable, Bool.and_eq_true] at hch
    exact hch.1
  rw [← value_record hkeys, read, String.toList_ofList]
  simp [hallowed, Document.ofChars_record hT hne, bind, Except.bind]

end RedisGateway.Yaml
