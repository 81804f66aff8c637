import RedisGateway.Members
import RedisGateway.Yaml.Merge

/-!
The value of a YAML document. A collection is filled after those that were met before it, from the
root on, so of several faults one nearer to the root is reported.
-/

namespace RedisGateway.Yaml

/-- The nodes of a document while their values are found. -/
structure Harvest where
  nodes : Nodes
  /-- The values of the nodes that were met; those of collections are empty. -/
  values : Array (Option Value)
  /-- The collections that are to be filled, in order. -/
  queue : List Nat := []

/-- A part of finding values. -/
abbrev Find (α : Type) := StateT Harvest (Except Fault) α

namespace Find

def node (i : Nat) : Find Node := return (← get).nodes.node i

/-- Finds the value of a node by itself; a collection is filled later. A node has one value, however
often it is met. -/
def meet (i : Nat) : Find Unit := do
  let s ← get
  if (s.values.getD i none).isNone then
    match (s.nodes.tag i).hollow? with
    | some v => set { s with values := s.values.set! i (some v), queue := s.queue ++ [i] }
    | none =>
      let v ← s.nodes.atom i
      set { s with values := s.values.set! i (some v) }

/-- Meets a key and what it stands for. -/
def meetEntry (e : Nat × Nat) : Find Unit := do
  meet e.1
  meet e.2

/-- Meets a key that has to be usable as one, and what it stands for. -/
def meetField (e : Nat × Nat) : Find Unit := do
  meet e.1
  if (← get).values.getD e.1 none |>.any (!·.isFixed) then throw constructionFault
  meet e.2

/-- Meets the single entry of a mapping. -/
def meetPair (i : Nat) : Find Unit := do
  match ← node i with
  | .mapping _ [e] => meetEntry e
  | _ => throw constructionFault

/-- Meets the parts of a collection, after a mapping merged others. -/
def fill (i : Nat) : Find Unit := do
  match ← node i with
  | .sequence .seq items => items.forM meet
  | .sequence .orderedMap items | .sequence .pairs items => items.forM meetPair
  | .mapping .map _ | .mapping .set _ =>
    let ns ← (← get).nodes.flatten i
    modify fun s => { s with nodes := ns }
    (ns.node i).entries.forM meetField
  | _ => throw constructionFault

/-- Fills collections until none is left; a node is a collection to be filled at most once. -/
def fillAll : Nat → Find Unit
  | 0 => pure ()
  | fuel + 1 => do
    match (← get).queue with
    | [] => pure ()
    | i :: queue =>
      modify fun s => { s with queue }
      fill i
      fillAll fuel

end Find

namespace Harvest

/-- The value of a node with collections down to some depth, below which they are empty. -/
def value (s : Harvest) : Nat → Nat → Value
  | 0, i => (s.values.getD i none).getD .none
  | depth + 1, i =>
    let entry (e : Nat × Nat) : Value × Value := (s.value depth e.1, s.value depth e.2)
    match s.nodes.node i with
    | .sequence .seq items => .list (items.map (s.value depth))
    | .sequence .orderedMap items | .sequence .pairs items =>
      .list ((items.flatMap fun k => (s.nodes.node k).entries).map fun e =>
        .tuple [(entry e).1, (entry e).2])
    | .mapping .map es => .recordOf (es.map entry)
    | .mapping .set es => .set ((es.map entry).map (·.1))
    | _ => (s.values.getD i none).getD .none

end Harvest

/-- A document: its root, if it has one, and its nodes. -/
structure Document where
  root : Option Nat
  nodes : Nodes

namespace Document

/-- The document that a text holds. -/
def ofChars (cs : List Char) : Except Fault Document := do
  let (ts, behind) := tokens cs
  let (root, b) ← (Build.document (4 * ts.length + 4)).run { tokens := ts, behind }
  return { root, nodes := b.nodes }

/-- How deep the value of a document goes: settings are records in a record, and what their values
are made of does not matter. -/
def depth : Nat := 4

/-- The value of a document, nothing if it is empty. -/
def value (d : Document) : Except Fault Value :=
  match d.root with
  | none => .ok .none
  | some i => do
    let find : Find Unit := do
      Find.meet i
      Find.fillAll (d.nodes.size + 1)
    let (_, s) ← find.run { nodes := d.nodes, values := Array.replicate d.nodes.size none }
    return s.value depth i

end Document

/-- The value of a YAML text. -/
def read (s : String) : Except Fault Value := do
  let cs := s.toList
  if !cs.all isAllowed then throw (.malformedDocument .unreadableCharacter)
  (← Document.ofChars cs).value

end RedisGateway.Yaml
