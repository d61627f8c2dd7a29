import SketchMerge.Yaml.Graph
import SketchMerge.Yaml.ScalarValue
import SketchMerge.Yaml.Scatter
import SketchMerge.Yaml.Token.Scan

/-! # Loading a YAML document

    Values are made from the root outwards.  A scalar gets its value where it is
    met; a collection is at first empty and waits in a queue until its turn comes
    to be filled.  So a collection may contain itself, and of several faults the
    one nearest to the root is found first. -/

namespace SketchMerge.Yaml

/-- A document in the making. -/
structure Loader where
  nodes : Array Node
  /-- The values made so far, under the numbers of their nodes. -/
  data : Array (Option Datum)
  /-- The collections that are still to be filled, in order. -/
  queue : Array NodeId := #[]

namespace Loader

/-- The node under a number. -/
def node (l : Loader) (id : NodeId) : Node :=
  l.nodes.getD id ⟨.null, .scalar []⟩

/-- The value under a number. -/
def datum (l : Loader) (id : NodeId) : Datum :=
  (l.data.getD id none).getD .null

/-- The loader with another node under a number. -/
def setNode (l : Loader) (id : NodeId) (node : Node) : Loader :=
  { l with nodes := l.nodes.setIfInBounds id node }

/-- The loader with a value under a number. -/
def setDatum (l : Loader) (id : NodeId) (d : Datum) : Loader :=
  { l with data := l.data.setIfInBounds id (some d) }

/-- How many mappings may stand in for a scalar, one as the default of another.  Each waits
    for the text of its default. -/
def mostDefaults : Nat := levelsWithin 1 16

/-- The text of a node that is used as a scalar.  A mapping may stand in for a
    scalar: it has the text of its default value.  At most `fuel` steps from a
    mapping to its default are taken, so a mapping that is its own default ends. -/
def scalarText (l : Loader) : Nat → NodeId → Except Fault Text
  | 0, _ => .error .tooDeep
  | fuel + 1, id =>
    match (l.node id).body with
    | .scalar t => .ok t
    | .sequence _ => .error .malformed
    | .mapping pairs =>
      match pairs.find? fun (k, _) => (l.node k).type == .value with
      | some (_, v) => l.scalarText fuel v
      | none => .error .malformed

/-- The value of a collection before it is filled. -/
def blank? : TypeTag → Option Datum
  | .sequence => some (.list [])
  | .mapping => some (.mapping [])
  | .set => some (.set [])
  | .orderedMap | .pairs => some (.pairs [])
  | _ => none

/-- Gives a node its value, if it has none yet. -/
def visit (l : Loader) (id : NodeId) : Except Fault Loader :=
  match l.data.getD id none with
  | some _ => .ok l
  | none =>
    let type := (l.node id).type
    match blank? type with
    | some d => .ok { l.setDatum id d with queue := l.queue.push id }
    | none =>
      match type with
      | .merge | .value | .unknown => .error .malformed
      | _ => do
        let t ← l.scalarText (mostDefaults + 1) id
        match type, (l.node id).body with
        | .timestamp, .mapping _ => .error .timeOfMapping
        | _, _ => .ok (l.setDatum id (← ScalarValue.ofText type t))

/-- Gives every one of some nodes its value, in order. -/
def visitAll (l : Loader) (ids : List NodeId) : Except Fault Loader :=
  ids.foldlM visit l

/-- A mapping whose merge keys are being replaced by what they merge in. -/
structure Merging where
  loader : Loader
  /-- The pairs merged in so far. -/
  merged : List (NodeId × NodeId) := []
  /-- The mapping's own pairs so far. -/
  own : List (NodeId × NodeId) := []
  /-- The pairs still to be looked at. -/
  left : List (NodeId × NodeId)

namespace Merging

/-- The state after a pair that is kept. -/
def keep (m : Merging) (pair : NodeId × NodeId) : Merging :=
  { m with own := m.own ++ [pair], left := m.left.tail }

/-- The state after a merge key of the mapping `id`.  The mapping loses the key
    before anything is merged in, so that merging a mapping into itself ends. -/
def drop (m : Merging) (id : NodeId) : Merging :=
  let left := m.left.tail
  let node := { m.loader.node id with body := .mapping (m.own ++ left) }
  { m with left, loader := m.loader.setNode id node }

/-- The state with more pairs merged in.  If the mapping `id` has been merged into
    itself, that has replaced all its merge keys, and its pairs are final. -/
def merge (m : Merging) (id : NodeId) (more : List (NodeId × NodeId)) (l : Loader) : Merging :=
  let m := { m with merged := m.merged ++ more, loader := l }
  match (l.node id).body with
  | .mapping pairs => if pairs == m.own ++ m.left then m else { m with own := pairs, left := [] }
  | _ => m

/-- The state in which a default key has become a plain one. -/
def retype (m : Merging) (k : NodeId) : Merging :=
  { m with loader := m.loader.setNode k { m.loader.node k with type := .text } }

end Merging

/-- How many mappings may be merged in, one inside the other.  Each waits for the pairs of
    the next. -/
def mostMerges : Nat := levelsWithin 1 16

/-- The pairs of a mapping after the mappings under its merge keys are merged in.
    Merged pairs come first, so that a mapping's own pairs prevail; of a sequence
    of mappings the first prevails.  The mappings that are merged in have their
    own merge keys replaced likewise, but no more than `fuel` of them one inside
    the other. -/
def flatten : Nat → NodeId → Loader → Except Fault (List (NodeId × NodeId) × Loader)
  | 0, _, _ => .error .tooDeep
  | fuel + 1, id, l =>
    match (l.node id).body with
    | .mapping pairs => do
      let m ← pairs.foldlM
        (fun (m : Merging) (k, v) =>
          if m.left.isEmpty then .ok m
          else match (m.loader.node k).type, (m.loader.node v).body with
          | .merge, .mapping _ => do
            let m := m.drop id
            let (more, l) ← flatten fuel v m.loader
            .ok (m.merge id more l)
          | .merge, .sequence items => do
            let m := m.drop id
            let (groups, l) ← items.foldlM
              (fun (groups, l) item => do
                let (more, l) ← flatten fuel item l
                .ok (more :: groups, l))
              (([] : List (List (NodeId × NodeId))), m.loader)
            .ok (m.merge id groups.flatten l)
          | .merge, .scalar _ => Except.error Fault.malformed
          | .value, _ => .ok ((m.retype k).keep (k, v))
          | _, _ => .ok (m.keep (k, v)))
        { loader := l, left := pairs : Merging }
      let all := m.merged ++ m.own
      .ok (all, m.loader.setNode id { m.loader.node id with body := .mapping all })
    | _ => .error .malformed

/-- The entries with one more.  An entry with the same key keeps its place and its
    key, and gets the new value.  One node is always one key. -/
def putEntry (l : Loader) (entries : List (NodeId × NodeId)) (k v : NodeId) :
    List (NodeId × NodeId) :=
  let same (entry : NodeId × NodeId) : Bool :=
    entry.1 == k || (l.datum entry.1).sameKey (l.datum k)
  if entries.any same then entries.map fun e => if same e then (e.1, v) else e
  else entries ++ [(k, v)]

/-- The entries of a mapping node, and their values.  A key must not be a
    collection. -/
def entries (l : Loader) (id : NodeId) : Except Fault (List (NodeId × NodeId) × Loader) := do
  let (pairs, l) ← flatten (mostMerges + 1) id l
  pairs.foldlM
    (fun (found, l) (k, v) => do
      let l ← l.visit k
      if (l.datum k).isCollection then .error .malformed
      let l ← l.visit v
      .ok (l.putEntry found k v, l))
    ([], l)

/-- The pairs of a sequence node whose every item is a mapping with one pair. -/
def itemPairs (l : Loader) (items : List NodeId) :
    Except Fault (List (NodeId × NodeId) × Loader) :=
  items.foldlM
    (fun (found, l) item =>
      match (l.node item).body with
      | .mapping [(k, v)] => do .ok (found ++ [(k, v)], ← l.visitAll [k, v])
      | _ => .error .malformed)
    ([], l)

/-- Fills a collection. -/
def fill (l : Loader) (id : NodeId) : Except Fault Loader :=
  let node := l.node id
  match node.type, node.body with
  | .sequence, .sequence items => do .ok ((← l.visitAll items).setDatum id (.list items))
  | .mapping, .mapping _ => do
    let (found, l) ← l.entries id
    .ok (l.setDatum id (.mapping found))
  | .set, .mapping _ => do
    let (found, l) ← l.entries id
    .ok (l.setDatum id (.set (Scatter.list l.datum (found.map Prod.fst))))
  | .orderedMap, .sequence items | .pairs, .sequence items => do
    let (found, l) ← l.itemPairs items
    .ok (l.setDatum id (.pairs found))
  | _, _ => .error .malformed

/-- Fills the collections of the queue from the `n`-th on.  Every node enters the
    queue once at most. -/
def fillFrom : Nat → Nat → Loader → Except Fault Loader
  | 0, _, l => .ok l
  | fuel + 1, n, l =>
    match l.queue[n]? with
    | none => .ok l
    | some id => do fillFrom fuel (n + 1) (← l.fill id)

end Loader

/-- The values of a graph. -/
def Graph.values (g : Graph) : Except Fault Document := do
  let l : Loader := { nodes := g.nodes, data := Array.replicate g.nodes.size none }
  let l ← Loader.fillFrom (g.nodes.size + 1) 0 (← l.visit g.root)
  .ok { data := l.data.map (·.getD .null), root := g.root }

/-- The document of a stream; an empty stream is null. -/
def load (stream : List Char) : Except Fault Document := do
  match ← Builder.document (tokensOf stream) with
  | none => .ok { data := #[.null], root := 0 }
  | some g => g.values

end SketchMerge.Yaml
