import RedisGateway.Proofs.Yaml.Record
import RedisGateway.Yaml.Document

/-!
The nodes that are built from the tokens of a record: numbers go to a mapping first and to its
entries in order, to each key in front of its value (`document_record`).
-/

namespace RedisGateway.Yaml

namespace Build

theorem set_push_size {α : Type} (xs : Array α) (x y : α) :
    (xs.push x).setIfInBounds xs.size y = xs.push y := by
  apply Array.toList_inj.mp
  simp

/-! ## Single tokens -/

section Tokens

variable {b : Builder} {t : Token} {ts : List Token}

theorem pure_ok {α : Type} (a : α) : (pure a : Build α) b = .ok (a, b) := rfl

theorem get_ok : (get : Build Builder) b = .ok (b, b) := rfl

theorem modifyGet_ok {α : Type} (f : Builder → α × Builder) :
    (modifyGet f : Build α) b = .ok (f b) := rfl

/-- A part of building that succeeds hands over to the next one. -/
theorem bind_ok {α β : Type} {x : Build α} {f : α → Build β} {a : α} {b' : Builder}
    (h : x b = .ok (a, b')) : (x >>= f) b = f a b' := by
  simp [bind, StateT.bind, Except.bind, h]

theorem peek_cons (h : b.tokens = t :: ts) : peek b = .ok (t, b) := by
  simp [peek, h, bind, StateT.bind, Except.bind, get_ok, pure_ok]

theorem drop_cons (h : b.tokens = t :: ts) : drop b = .ok ((), { b with tokens := ts }) := by
  simp [drop, h, modify, modifyGet_ok]

theorem accept_same (h : b.tokens = t :: ts) :
    accept t b = .ok (true, { b with tokens := ts }) := by
  simp [accept, bind, StateT.bind, Except.bind, peek_cons h, drop_cons h, pure_ok]

theorem accept_other {t' : Token} (h : b.tokens = t :: ts) (hne : t ≠ t') :
    accept t' b = .ok (false, b) := by
  simp [accept, bind, StateT.bind, Except.bind, peek_cons h, hne, pure_ok]

theorem demand_same (h : b.tokens = t :: ts) : demand t b = .ok ((), { b with tokens := ts }) := by
  simp [demand, bind, StateT.bind, Except.bind, peek_cons h, drop_cons h]

theorem next_cons (h : b.tokens = t :: ts) (l : List Token) : next l b = .ok (l.contains t, b) := by
  simp [next, bind, StateT.bind, Except.bind, peek_cons h, pure_ok]

/-- Tokens that are properties of a node. -/
def isProperty : Token → Bool
  | .anchor _ | .tag .. => true
  | _ => false

theorem properties_none (h : b.tokens = t :: ts) (ht : isProperty t = false) :
    properties b = .ok ({}, b) := by
  have hanchor : anchor? b = .ok (none, b) := by
    simp only [anchor?, bind, StateT.bind, Except.bind, peek_cons h]
    cases t <;> simp_all [isProperty, pure_ok]
  have htag : tag? b = .ok (none, b) := by
    simp only [tag?, bind, StateT.bind, Except.bind, peek_cons h]
    cases t <;> simp_all [isProperty, pure_ok]
  simp [properties, bind, StateT.bind, Except.bind, hanchor, htag, pure_ok]

/-- A node without properties takes its number before its parts are built. -/
theorem place_plain {body : Build Node} {n : Node} {b' : Builder}
    (hbody : body { b with nodes := b.nodes.push .empty } = .ok (n, b')) :
    place {} body b =
      .ok (b.nodes.size, { b' with nodes := b'.nodes.set! b.nodes.size n }) := by
  have hanchor : (none : Option String).forM (nameNode b.nodes.size) = pure () := rfl
  simp [place, empty, add, modify, modifyGet_ok, bind, StateT.bind, Except.bind, pure_ok, hbody,
    hanchor]

end Tokens

end Build

/-! ## Nodes -/

/-- The tag of a scalar: that of its form, unless it stands in quotes. -/
def Said.tag (x : Said) : Tag := if x.plain then .ofPlain x.content else .str

def Said.node (x : Said) : Node := .scalar x.tag (.ofList x.content)

def keyNode (k : List Char) : Node := Said.node ⟨k, true⟩

/-- The nodes of scalars under keys. -/
def leavesNodes (ls : List (List Char × Said)) : List Node :=
  ls.flatMap fun l => [keyNode l.1, l.2.node]

/-- So many entries whose nodes have their numbers in order, from one on. -/
def pairsFrom (n : Nat) : Nat → List (Nat × Nat)
  | 0 => []
  | count + 1 => (n, n + 1) :: pairsFrom (n + 2) count

/-- The nodes of a value that begins with a number. -/
def Part.nodes (n : Nat) : Part → List Node
  | .scalar x => [x.node]
  | .group ls => .mapping .map (pairsFrom (n + 1) ls.length) :: leavesNodes ls

def entryNodes (n : Nat) (e : List Char × Part) : List Node := keyNode e.1 :: e.2.nodes (n + 1)

/-- The nodes of entries that begin with a number. -/
def entriesNodes (n : Nat) : List (List Char × Part) → List Node
  | [] => []
  | e :: es => entryNodes n e ++ entriesNodes (n + (entryNodes n e).length) es

/-- The entries that begin with a number. -/
def entryPairs (n : Nat) : List (List Char × Part) → List (Nat × Nat)
  | [] => []
  | e :: es => (n, n + 1) :: entryPairs (n + (entryNodes n e).length) es

/-- The nodes of a record. -/
def recordNodes (es : List (List Char × Part)) : List Node :=
  .mapping .map (entryPairs 1 es) :: entriesNodes 1 es

namespace Build

section Nodes

variable {b : Builder} {ts : List Token} {n : Nat}

theorem node_scalar {block indentless : Bool} {content : List Char} {plain : Bool}
    (h : b.tokens = .scalar (.ofList content) plain :: ts) :
    node block indentless (n + 1) b =
      .ok (b.nodes.size,
        { b with tokens := ts, nodes := b.nodes.push (Said.node ⟨content, plain⟩) }) := by
  have htag : scalarTag {} plain (.ofList content) = Said.tag ⟨content, plain⟩ := by
    simp [scalarTag, namedTag?, Said.tag]
  rw [node]
  simp only [bind, StateT.bind, Except.bind, peek_cons h,
    properties_none h (show isProperty (.scalar (.ofList content) plain) = false from rfl),
    drop_cons h, htag]
  have hplace := @place_plain { b with tokens := ts } (pure (Said.node ⟨content, plain⟩)) _
    { b with tokens := ts, nodes := b.nodes.push .empty } rfl
  simpa [Said.node, set_push_size] using hplace

theorem node_block {indentless : Bool} {es : List (Nat × Nat)} {b' : Builder}
    (h : b.tokens = .blockMappingStart :: ts)
    (hentries : blockEntries n { b with tokens := ts, nodes := b.nodes.push .empty } =
      .ok (es, b')) :
    node true indentless (n + 1) b =
      .ok (b.nodes.size, { b' with nodes := b'.nodes.set! b.nodes.size (.mapping .map es) }) := by
  rw [node]
  simp only [bind, StateT.bind, Except.bind, peek_cons h,
    properties_none h (show isProperty .blockMappingStart = false from rfl)]
  refine place_plain ?_
  have hdrop : drop { b with nodes := b.nodes.push .empty } =
      .ok ((), { b with tokens := ts, nodes := b.nodes.push .empty }) := drop_cons h
  simp [Functor.map, StateT.map, bind, StateT.bind, Except.bind, hdrop, hentries, pure,
    Except.pure, namedTag?]

/-- Tokens that stand where nothing does in an entry of a mapping. -/
def isGap (t : Token) : Bool := [Token.key, .value, .blockEnd].contains t

theorem next_gap {t : Token} (h : b.tokens = t :: ts) :
    next [.key, .value, .blockEnd] b = .ok (isGap t, b) := next_cons h _

/-- An entry of a mapping in a block has the numbers of its key and of its value. -/
theorem blockEntries_entry {k : List Char} {t : Token} {es : List (Nat × Nat)} {v : Nat}
    {b' b'' : Builder} (h : b.tokens = keyTokens k ++ t :: ts) (ht : isGap t = false)
    (hvalue : node true true (n + 1)
      { b with tokens := t :: ts, nodes := b.nodes.push (keyNode k) } = .ok (v, b'))
    (hrest : blockEntries (n + 1) b' = .ok (es, b'')) :
    blockEntries (n + 2) b = .ok ((b.nodes.size, v) :: es, b'') := by
  have hkey : b.tokens = .key :: .scalar (.ofList k) true :: .value :: t :: ts := h
  have hnode :
      node true true (n + 1) { b with tokens := .scalar (.ofList k) true :: .value :: t :: ts } =
        .ok (b.nodes.size,
          { b with tokens := .value :: t :: ts, nodes := b.nodes.push (keyNode k) }) :=
    node_scalar rfl
  rw [blockEntries, bind_ok (accept_same hkey), if_pos rfl, bind_ok (next_gap rfl),
    if_neg (by simp [isGap]), bind_ok hnode]
  beta_reduce
  rw [bind_ok (accept_same rfl)]
  simp only [if_true]
  rw [bind_ok (next_gap rfl), if_neg (by simp [ht]), bind_ok hvalue, bind_ok hrest]
  rfl

theorem blockEntries_end (h : b.tokens = .blockEnd :: ts) :
    blockEntries (n + 1) b = .ok ([], { b with tokens := ts }) := by
  rw [blockEntries, bind_ok (accept_other h (by decide)), if_neg (by decide),
    bind_ok (demand_same h)]
  rfl

/-- Scalars under keys. -/
theorem blockEntries_leaves (ls : List (List Char × Said)) {b : Builder}
    (h : b.tokens = ls.flatMap leafTokens ++ .blockEnd :: ts) (hn : ls.length + 2 ≤ n) :
    blockEntries n b =
      .ok (pairsFrom b.nodes.size ls.length,
        { b with tokens := ts, nodes := b.nodes ++ (leavesNodes ls).toArray }) := by
  induction ls generalizing b n with
  | nil =>
    obtain ⟨n, rfl⟩ : ∃ m, n = m + 1 := ⟨n - 1, by omega⟩
    simpa [leavesNodes, pairsFrom] using blockEntries_end (n := n) h
  | cons l ls ih =>
    simp only [List.length_cons] at hn
    obtain ⟨n, rfl⟩ : ∃ m, n = m + 2 := ⟨n - 2, by omega⟩
    have h' : b.tokens =
        keyTokens l.1 ++ l.2.token :: (ls.flatMap leafTokens ++ .blockEnd :: ts) := by
      simp [h, leafTokens]
    have hrest := ih (n := n + 1) (b := { b with
      tokens := ls.flatMap leafTokens ++ .blockEnd :: ts
      nodes := (b.nodes.push (keyNode l.1)).push l.2.node }) rfl (by omega)
    rw [blockEntries_entry h' rfl (node_scalar rfl) hrest]
    simp [leavesNodes, pairsFrom]

theorem length_leafTokens (ls : List (List Char × Said)) :
    (ls.flatMap leafTokens).length = 4 * ls.length := by
  induction ls with
  | nil => rfl
  | cons l ls ih => simp [leafTokens, keyTokens, ih]; omega

/-- A value begins with a token that is no gap. -/
theorem tokens_cons (p : Part) : ∃ t us, p.tokens = t :: us ∧ isGap t = false := by
  cases p with
  | scalar x => exact ⟨_, _, rfl, rfl⟩
  | group ls => exact ⟨_, _, rfl, rfl⟩

/-- The value of an entry. -/
theorem node_part (p : Part) {b : Builder} (h : b.tokens = p.tokens ++ ts)
    (hn : p.tokens.length + 1 ≤ n) :
    node true true (n + 1) b =
      .ok (b.nodes.size,
        { b with tokens := ts, nodes := b.nodes ++ (p.nodes b.nodes.size).toArray }) := by
  cases p with
  | scalar x =>
    rw [node_scalar h]
    simp [Part.nodes]
  | group ls =>
    have h' : b.tokens = .blockMappingStart :: (ls.flatMap leafTokens ++ .blockEnd :: ts) := by
      simpa [Part.tokens] using h
    have hlen : ls.length + 2 ≤ n := by
      have := length_leafTokens ls
      simp only [Part.tokens, List.length_cons, List.length_append, List.length_nil] at hn
      omega
    have hentries := blockEntries_leaves ls (n := n) (b := { b with
      tokens := ls.flatMap leafTokens ++ .blockEnd :: ts, nodes := b.nodes.push .empty }) rfl hlen
    rw [node_block h' hentries]
    simp [Part.nodes]

/-- The entries of a record. -/
theorem blockEntries_entries (es : List (List Char × Part)) {b : Builder}
    (h : b.tokens = es.flatMap entryTokens ++ .blockEnd :: ts)
    (hn : (es.flatMap entryTokens).length + 3 ≤ n) :
    blockEntries n b =
      .ok (entryPairs b.nodes.size es,
        { b with tokens := ts, nodes := b.nodes ++ (entriesNodes b.nodes.size es).toArray }) := by
  induction es generalizing b n with
  | nil =>
    obtain ⟨n, rfl⟩ : ∃ m, n = m + 1 := ⟨n - 1, by omega⟩
    simpa [entriesNodes, entryPairs] using blockEntries_end (n := n) h
  | cons e es ih =>
    have hlen : (entryTokens e).length = e.2.tokens.length + 3 := by
      simp [entryTokens, keyTokens]
    simp only [List.flatMap_cons, List.length_append, hlen] at hn
    obtain ⟨n, rfl⟩ : ∃ m, n = m + 2 := ⟨n - 2, by omega⟩
    obtain ⟨t, us, ht, hgap⟩ := tokens_cons e.2
    set rest := es.flatMap entryTokens ++ .blockEnd :: ts with hrest
    have h' : b.tokens = keyTokens e.1 ++ t :: (us ++ rest) := by
      simp [h, entryTokens, ht, hrest]
    have hvalue := node_part e.2 (n := n) (b := { b with
      tokens := t :: (us ++ rest), nodes := b.nodes.push (keyNode e.1) })
      (show _ = e.2.tokens ++ rest by simp [ht]) (by omega)
    rw [blockEntries_entry h' hgap hvalue (ih rfl (by omega))]
    simp [entriesNodes, entryPairs, entryNodes, Nat.add_comm]

theorem dropEnds_other {t : Token} (h : b.tokens = t :: ts) (ht : t ≠ .documentEnd) :
    dropEnds n b = .ok ((), b) := by
  cases n with
  | zero => rfl
  | succ n =>
    rw [dropEnds, bind_ok (accept_other h ht), if_neg (by decide)]
    rfl

/-- The document of a record's tokens: its root has the first number. -/
theorem document_record (es : List (List Char × Part)) (hn : (recordTokens es).length < n) :
    document n { tokens := recordTokens es } =
      .ok (some 0, { tokens := [.streamEnd], handles := usualHandles
                     nodes := (recordNodes es).toArray }) := by
  obtain ⟨n, rfl⟩ : ∃ m, n = m + 1 := ⟨n - 1, by omega⟩
  simp only [recordTokens, List.length_cons, List.length_append, List.length_nil] at hn
  set marked : Builder := { tokens := recordTokens es, handles := usualHandles } with hmarked
  have hmodify : (modify fun b => { b with handles := usualHandles } : Build Unit)
      { tokens := recordTokens es } = .ok ((), marked) := rfl
  have hentries := blockEntries_entries es (n := n) (b := { marked with
    tokens := es.flatMap entryTokens ++ [.blockEnd, .streamEnd], nodes := #[.empty] }) rfl
    (by omega)
  have hnode : node true false (n + 1) marked = _ := node_block rfl hentries
  have hnodes : (#[Node.empty] ++ (entriesNodes 1 es).toArray).set! 0
      (.mapping .map (entryPairs 1 es)) = (recordNodes es).toArray := by
    simp [recordNodes]
  have hbegins : ¬ beginsDocument .blockMappingStart = true := by decide
  rw [document, bind_ok (peek_cons rfl), if_neg (by decide)]
  beta_reduce
  rw [if_neg hbegins, bind_ok hmodify, bind_ok hnode,
    bind_ok (dropEnds_other (n := n + 1) rfl (by decide)), bind_ok (peek_cons rfl),
    if_pos rfl]
  exact congrArg (fun ns => Except.ok (some 0, ({ tokens := [.streamEnd], handles := usualHandles
                                                  nodes := ns } : Builder))) hnodes

end Nodes

end Build

/-- The document of a record's text. -/
theorem Document.ofChars_record {es : List (List Char × Part)} {T : List Char}
    (hT : RecordText es T) (hne : es ≠ []) :
    Document.ofChars T = .ok { root := some 0, nodes := (recordNodes es).toArray } := by
  have hdocument := Build.document_record es (n := 4 * (recordTokens es).length + 4) (by omega)
  simp [Document.ofChars, tokens_record hT hne, StateT.run, hdocument, bind, Except.bind, pure,
    Except.pure]

end RedisGateway.Yaml
