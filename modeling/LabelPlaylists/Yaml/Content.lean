import LabelPlaylists.Yaml.Merge
import LabelPlaylists.Yaml.Value

/-!
What a YAML document holds: a scalar has its value at once, and a collection, which may hold itself, is
known by its number until it is filled. Collections are filled in the order in which they are met, and
what is met first counts: a fault, a merge, or a key that becomes a text.
-/

namespace LabelPlaylists.Yaml

-- What a node stands for. A collection refers to what it holds by the numbers of nodes.
inductive Thing where
  | scalar (v : Value)
  | sequence (items : List Nat)
  | mapping (entries : List (Value × Nat))
  | set (items : List Value)
  | pairs (entries : List (Nat × Nat))
deriving Repr, Inhabited

structure Content where
  things : Array (Option Thing)
  root : Nat
deriving Repr

namespace Content

structure Building where
  nodes : Nodes
  things : Array (Option Thing)
  met : Array Nat := #[]

abbrev Build (α : Type) := StateT Building (Except Fault) α

-- The text of a scalar. A mapping can stand for one by its default value.
def textOf (nodes : Nodes) : Nat → Nat → Except Fault String
  | 0, _ => .error .tooDeep
  | fuel + 1, n =>
    match nodes[n]? with
    | some (.scalar _ s) => .ok s
    | some (.mapping _ entries) =>
      match entries.find? fun (key, _) => nodes.hasTag .default key with
      | some (_, value) => textOf nodes fuel value
      | none => .error .malformed
    | _ => .error .malformed

def scalarOf (nodes : Nodes) (n : Nat) (tag : Tag) : Except Fault Value := do
  let s ← textOf nodes (nodes.size + 1) n
  match tag, nodes[n]? with
  | .time, some (.mapping ..) => .error .timeOfMapping
  | _, _ => Value.ofScalar tag s

-- The collection of a type before it is filled.
def unfilled? : Tag → Option Thing
  | .sequence => some (.sequence [])
  | .mapping => some (.mapping [])
  | .set => some (.set [])
  | .pairs | .orderedPairs => some (.pairs [])
  | _ => none

def put (n : Nat) (t : Thing) : Build Unit :=
  modify fun b => { b with things := b.things.setIfInBounds n (some t) }

-- What a node stands for; a collection is noted for being filled.
def make (n : Nat) : Build Thing := do
  let b ← get
  match b.things[n]?, b.nodes[n]? with
  | some (some t), _ => return t
  | _, none => throw .malformed
  | _, some node =>
    match unfilled? node.tag with
    | some t =>
      put n t
      modify fun b => { b with met := b.met.push n }
      return t
    | none =>
      let t ← if node.tag.isScalar then Thing.scalar <$> scalarOf b.nodes n node.tag
        else throw .malformed
      put n t
      return t

-- Entries with their keys, which must not be collections; of equal keys the last value counts.
def keyed : List (Value × Nat) → List (Nat × Nat) → Build (List (Value × Nat))
  | found, [] => return found
  | found, (key, value) :: rest => do
    match ← make key with
    | .scalar k =>
      let _ ← make value
      keyed (Value.setEntry found k value) rest
    | _ => throw .malformed

-- The entries of a mapping, after what is to be merged into it.
def entriesOf (n : Nat) : Build (List (Value × Nat)) := do
  let b ← get
  let (entries, nodes) ← (Nodes.flatten n).run b.nodes
  set { b with nodes }
  keyed [] entries

-- The entry of a mapping that stands for a pair.
def pairOf (n : Nat) : Build (Nat × Nat) := do
  match (← get).nodes[n]? with
  | some (.mapping _ [(key, value)]) =>
    let _ ← make key
    let _ ← make value
    return (key, value)
  | _ => throw .malformed

def fill (n : Nat) : Build Unit := do
  match (← get).nodes[n]? with
  | some (.sequence .sequence items) =>
    let _ ← items.mapM make
    put n (.sequence items)
  | some (.mapping .mapping _) => put n (.mapping (← entriesOf n))
  | some (.mapping .set _) => put n (.set ((← entriesOf n).map (·.1)))
  | some (.sequence tag items) =>
    if tag.holdsPairs then put n (.pairs (← items.mapM pairOf)) else throw .malformed
  | _ => throw .malformed

def fillFrom : Nat → Nat → Build Unit
  | 0, _ => return ()
  | fuel + 1, place => do
    match (← get).met[place]? with
    | none => return ()
    | some n =>
      fill n
      fillFrom fuel (place + 1)

def ofDocument (d : Document) : Except Fault Content := do
  let start : Building := { nodes := d.nodes, things := Array.replicate d.nodes.size none }
  let build : Build Unit := do
    let _ ← make d.root
    fillFrom (d.nodes.size + 1) 0
  let (_, b) ← build.run start
  .ok ⟨b.things, d.root⟩

def ofText (s : String) : Except Fault Content := (Document.ofText s).bind ofDocument

def thing (c : Content) (n : Nat) : Thing := ((c.things[n]?).join).getD (.scalar .null)

-- The value of a node inside some collections. One of these is not written out again.
def valueInside (c : Content) : Nat → List Nat → Nat → Value
  | 0, _, _ => .null
  | fuel + 1, outer, n =>
    if outer.contains n then .enclosing
    else
      let inside := c.valueInside fuel (n :: outer)
      match c.thing n with
      | .scalar v => v
      | .sequence items => .sequence (items.map inside)
      | .mapping entries => .mapping (entries.map fun (k, v) => (k, inside v))
      | .set items => .set items
      | .pairs entries => .pairs (entries.map fun (k, v) => (inside k, inside v))

def value (c : Content) (n : Nat) : Value := c.valueInside (c.things.size + 1) [] n

end Content

end LabelPlaylists.Yaml
