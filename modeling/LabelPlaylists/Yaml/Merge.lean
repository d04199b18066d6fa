import LabelPlaylists.Yaml.Node

/-!
Merge keys. What stands behind a merge key is no entry of its mapping: its own entries, after the same
has been done to them, come in front of those of the mapping. Nodes are changed in place, so a mapping
that is referred to more than once is changed for all who refer to it.
-/

namespace LabelPlaylists.Yaml.Nodes

def entries (nodes : Nodes) (n : Nat) : List (Nat × Nat) :=
  match nodes[n]? with
  | some (.mapping _ entries) => entries
  | _ => []

def setEntries (nodes : Nodes) (n : Nat) (entries : List (Nat × Nat)) : Nodes :=
  match nodes[n]? with
  | some (.mapping tag _) => nodes.setIfInBounds n (.mapping tag entries)
  | _ => nodes

def hasTag (nodes : Nodes) (tag : Tag) (n : Nat) : Bool := nodes[n]?.any (·.tag = tag)

-- The keys of default values in a mapping become texts like any other.
def defaultsAsTexts (nodes : Nodes) (n : Nat) : Nodes :=
  (nodes.entries n).foldl (fun nodes (key, _) =>
    if nodes.hasTag .default key then nodes.modify key (·.withTag .text) else nodes) nodes

abbrev Edit (α : Type) := StateT Nodes (Except Fault) α

-- Takes the first merge key out of a mapping and gives what stands behind it.
def takeMerge (n : Nat) : Edit (Option Nat) := do
  let nodes ← get
  let own := nodes.entries n
  let before := own.takeWhile fun (key, _) => !nodes.hasTag .merge key
  match own.drop before.length with
  | [] => return none
  | (_, value) :: rest =>
    set (nodes.setEntries n (before ++ rest))
    return some value

-- The mappings that a node behind a merge key stands for: itself, or the items of a sequence with
-- the last one first.
def mergeable (nodes : Nodes) (n : Nat) : Option (List Nat) :=
  match nodes[n]? with
  | some (.mapping ..) => some [n]
  | some (.sequence _ items) => some items
  | _ => none

def mergedEntries (drain : Nat → Edit (List (Nat × Nat))) (n : Nat) : Edit (List (Nat × Nat)) := do
  match (← get)[n]? with
  | some (.mapping ..) =>
    modify (·.defaultsAsTexts n)
    let merged ← drain n
    modify fun nodes => nodes.setEntries n (merged ++ nodes.entries n)
    return (← get).entries n
  | _ => throw .malformed

-- Takes all merge keys out of a mapping and gives the entries that come in their place. Each takes
-- one off the merge keys of the document, whose number is the fuel.
def drain : Nat → Nat → Edit (List (Nat × Nat))
  | 0, _ => return []
  | fuel + 1, n => do
    match ← takeMerge n with
    | none => return []
    | some value =>
      match (← get).mergeable value with
      | none => throw .malformed
      | some mappings =>
        let parts ← mappings.mapM (mergedEntries (drain fuel))
        let others ← drain fuel n
        return parts.reverse.flatten ++ others

def mergeCount (nodes : Nodes) : Nat :=
  nodes.foldl (fun count n =>
    match n with
    | .mapping _ entries => count + entries.countP fun (key, _) => nodes.hasTag .merge key
    | _ => count) 0

def flatten (n : Nat) : Edit (List (Nat × Nat)) := do
  mergedEntries (drain (← get).mergeCount) n

end LabelPlaylists.Yaml.Nodes
