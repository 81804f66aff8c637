import RedisGateway.Yaml.Atom
import RedisGateway.Yaml.Node

/-!
The nodes of a document by their numbers, and mappings that merge others. Merging changes a mapping
for good: wherever it is met again, it has the entries that it merged.
-/

namespace RedisGateway.Yaml

/-- The nodes of a document by their numbers. -/
abbrev Nodes := Array Node

namespace Nodes

/-- The node with a number. -/
def node (ns : Nodes) (i : Nat) : Node := ns.getD i .empty

def tag (ns : Nodes) (i : Nat) : Tag := (ns.node i).tag

/-- How many entries merge others. -/
def merges (ns : Nodes) : Nat :=
  (ns.toList.map fun n => n.entries.countP fun e => ns.tag e.1 = .merge).foldr (· + ·) 0

/-- What the first entry of a mapping that merges others merges, and the nodes without that
entry. -/
def takeMerge? (ns : Nodes) (i : Nat) : Option (Nat × Nodes) :=
  match ns.node i with
  | .mapping t es =>
    match es.span fun e => ns.tag e.1 ≠ .merge with
    | (before, e :: behind) => some (e.2, ns.set! i (.mapping t (before ++ behind)))
    | _ => none
  | _ => none

/-- The mappings that stand behind a merge: one mapping, or those of a sequence. -/
def sources (ns : Nodes) (i : Nat) : Except Fault (List Nat) :=
  let isMapping (k : Nat) : Bool := match ns.node k with
    | .mapping .. => true
    | _ => false
  match ns.node i with
  | .mapping .. => .ok [i]
  | .sequence _ ks => if ks.all isMapping then .ok ks else .error constructionFault
  | .scalar .. => .error constructionFault

/-- The nodes after the keys that stand for values have become texts. -/
def settleKeys (ns : Nodes) (es : List (Nat × Nat)) : Nodes :=
  es.foldl (fun ns e =>
    if ns.tag e.1 = .value then ns.set! e.1 ((ns.node e.1).withTag .str) else ns) ns

/-- The nodes after a mapping got the entries that it merges in front of its own ones. -/
def settle (ns : Nodes) (i : Nat) (merged : List (Nat × Nat)) : Nodes :=
  match ns.node i with
  | .mapping t es => settleKeys (ns.set! i (.mapping t (merged ++ es))) es
  | _ => ns

/-- The nodes after a mapping merged others, on top of what it has merged so far. Of several sources
the last one comes first. Each step takes an entry that merges away, which bounds the number of
steps. -/
def flattenFrom : Nat → Nat → List (Nat × Nat) → Nodes → Except Fault Nodes
  | 0, i, merged, ns => .ok (ns.settle i merged)
  | fuel + 1, i, merged, ns =>
    match ns.takeMerge? i with
    | none => .ok (ns.settle i merged)
    | some (j, ns) => do
      let (parts, ns) ← (← ns.sources j).foldlM (fun (parts, ns) k => do
        let ns ← flattenFrom fuel k [] ns
        return ((ns.node k).entries :: parts, ns)) (([] : List (List (Nat × Nat))), ns)
      flattenFrom fuel i (merged ++ parts.flatten) ns

/-- The nodes after a mapping merged others. -/
def flatten (ns : Nodes) (i : Nat) : Except Fault Nodes := flattenFrom (ns.merges + 1) i [] ns

/-! ## Scalars -/

/-- The content of a scalar, or that of the entry of a mapping that stands for its value. -/
def content (ns : Nodes) : Nat → Nat → Except Fault Content
  | 0, _ => .error .endlessValue
  | fuel + 1, i =>
    match ns.node i with
    | .scalar _ c => .ok c
    | .mapping _ es =>
      match es.find? fun e => ns.tag e.1 = .value with
      | some e => ns.content fuel e.2
      | none => .error constructionFault
    | .sequence .. => .error constructionFault

/-- The value of a node with a tag of scalars. -/
def atom (ns : Nodes) (i : Nat) : Except Fault Value := do
  match (ns.tag i).atom? with
  | none => throw constructionFault
  | some value =>
    let c ← ns.content (ns.size + 1) i
    match ns.node i with
    | .mapping .timestamp _ => throw .notFields
    | _ => value c

end Nodes
end RedisGateway.Yaml
