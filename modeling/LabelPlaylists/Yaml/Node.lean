import LabelPlaylists.Yaml.Tag
import LabelPlaylists.Yaml.Token

/-!
The nodes of a YAML document, from its tokens. Nodes have numbers, by which collections refer to what
they hold: an alias is the number of the node of its anchor, which may be a collection that the alias
itself stands in.
-/

namespace LabelPlaylists.Yaml

inductive Node where
  | scalar (tag : Tag) (text : String)
  | sequence (tag : Tag) (items : List Nat)
  | mapping (tag : Tag) (entries : List (Nat × Nat))
deriving DecidableEq, Repr

namespace Node

def tag : Node → Tag
  | scalar tag _ | sequence tag _ | mapping tag _ => tag

def withTag (tag : Tag) : Node → Node
  | scalar _ s => scalar tag s
  | sequence _ items => sequence tag items
  | mapping _ entries => mapping tag entries

def empty : Node := scalar .null ""

end Node

abbrev Nodes := Array Node

structure Document where
  nodes : Nodes
  root : Nat
deriving Repr

namespace Document

-- The handles of tags that need no directive.
def usualHandles : List (String × String) := [("!", "!"), ("!!", Tag.start)]

def greatestDepth : Nat := 480

structure Source where
  tokens : List Token
  -- What is wrong behind the last token.
  fault : Option Fault
  handles : List (String × String) := usualHandles
  nodes : Nodes := #[]
  anchors : List (String × Nat) := []
  depth : Nat := 0

abbrev Read (α : Type) := StateT Source (Except Fault) α

def malformed : Read α := throw .malformed

def peek : Read (Option Token) := do
  let s ← get
  match s.tokens, s.fault with
  | t :: _, _ => return some t
  | [], some f => throw f
  | [], none => return none

def advance : Read Unit := modify fun s => { s with tokens := s.tokens.tail }

def accept (t : Token) : Read Bool := do
  if (← peek) = some t then
    advance
    return true
  else return false

def sees (ts : List Token) : Read Bool := return (← peek).any ts.contains

def add (n : Node) : Read Nat := do
  let s ← get
  set { s with nodes := s.nodes.push n }
  return s.nodes.size

def define (anchor : Option String) (n : Node) : Read Nat := do
  let id ← add n
  if let some name := anchor then modify fun s => { s with anchors := (name, id) :: s.anchors }
  return id

def collection (anchor : Option String) (make : List α → Node) (content : Read (List α)) :
    Read Nat := do
  let id ← define anchor (make [])
  if greatestDepth ≤ (← get).depth then throw .tooDeep
  modify fun s => { s with depth := s.depth + 1 }
  let content ← content
  modify fun s => { s with depth := s.depth - 1, nodes := s.nodes.setIfInBounds id (make content) }
  return id

structure Properties where
  anchor : Option String := none
  tag : Option (Option String × String) := none

def anchor? : Read (Option String) := do
  match ← peek with
  | some (.anchor name) =>
    advance
    return some name
  | _ => return none

def tag? : Read (Option (Option String × String)) := do
  match ← peek with
  | some (.tag handle suffix) =>
    advance
    return some (handle, suffix)
  | _ => return none

def properties : Read Properties := do
  match ← anchor? with
  | some name => return ⟨some name, ← tag?⟩
  | none =>
    match ← tag? with
    | some tag => return ⟨← anchor?, some tag⟩
    | none => return {}

def fullTag : Option (Option String × String) → Read (Option String)
  | none => return none
  | some (none, suffix) => return some suffix
  | some (some handle, suffix) => do
    match (← get).handles.lookup handle with
    | some start => return some (start ++ suffix)
    | none => malformed

-- An exclamation mark alone leaves the tag open.
def isOpen (name : Option String) : Bool := name.all (· = "!")

def collectionTag (name : Option String) (usual : Tag) : Tag :=
  if isOpen name then usual else (name.map Tag.ofName).getD usual

-- The tag of a scalar. A text in quotes is text, unless an exclamation mark leaves that open.
def scalarTag (name : Option String) (s : String) (isPlain : Bool) : Tag :=
  match name with
  | some name => if name = "!" then .ofPlain s else .ofName name
  | none => if isPlain then .ofPlain s else .text

mutual

-- A node. Block collections may stand only where lines start, and dashes at the indentation of
-- their key only behind a key or its colon.
def node (inBlock afterKey : Bool) : Nat → Read Nat
  | 0 => malformed
  | fuel + 1 => do
    if let some (.alias name) ← peek then
      advance
      match (← get).anchors.lookup name with
      | some id => return id
      | none => malformed
    else
      let p ← properties
      let tag ← fullTag p.tag
      let next ← peek
      if (← get).anchors.any fun (name, _) => p.anchor = some name then malformed
      let sequenceOf := collection p.anchor (.sequence (collectionTag tag .sequence))
      let mappingOf := collection p.anchor (.mapping (collectionTag tag .mapping))
      match next with
      | some (.scalar s isPlain) => do
        advance
        define p.anchor (.scalar (scalarTag tag s isPlain) s)
      | some .openBracket => do
        advance
        sequenceOf (bracketItems fuel true)
      | some .openBrace => do
        advance
        mappingOf (braceEntries fuel true)
      | t =>
        if afterKey && t = some .dash then sequenceOf (alignedItems fuel)
        else if inBlock && t = some .sequenceStart then
          advance
          sequenceOf (blockItems fuel)
        else if inBlock && t = some .mappingStart then
          advance
          mappingOf (blockEntries fuel)
        else if p.anchor.isSome || tag.isSome then
          define p.anchor (.scalar (scalarTag tag "" true) "")
        else malformed

-- A node, or an empty one before one of the given tokens.
def nodeUnless (ends : List Token) (inBlock afterKey : Bool) : Nat → Read Nat
  | 0 => malformed
  | fuel + 1 => do
    if ← sees ends then add .empty else node inBlock afterKey fuel

def blockItems : Nat → Read (List Nat)
  | 0 => malformed
  | fuel + 1 => do
    if ← accept .dash then
      let item ← nodeUnless [.dash, .blockEnd] true false fuel
      return item :: (← blockItems fuel)
    else if ← accept .blockEnd then return []
    else malformed

-- The entries behind dashes at the indentation of their key.
def alignedItems : Nat → Read (List Nat)
  | 0 => malformed
  | fuel + 1 => do
    if ← accept .dash then
      let item ← nodeUnless [.dash, .key, .value, .blockEnd] true false fuel
      return item :: (← alignedItems fuel)
    else return []

def valueUnless (ends : List Token) (inBlock afterKey : Bool) : Nat → Read Nat
  | 0 => malformed
  | fuel + 1 => do
    if ← accept .value then nodeUnless ends inBlock afterKey fuel else add .empty

def blockEntries : Nat → Read (List (Nat × Nat))
  | 0 => malformed
  | fuel + 1 => do
    if ← accept .key then
      let ends := [Token.key, .value, .blockEnd]
      let key ← nodeUnless ends true true fuel
      let value ← valueUnless ends true true fuel
      return (key, value) :: (← blockEntries fuel)
    else if ← accept .blockEnd then return []
    else malformed

-- The items between brackets; all but the first come behind a comma. A single entry is a mapping of
-- its own.
def bracketItems : Nat → Bool → Read (List Nat)
  | 0, _ => malformed
  | fuel + 1, first => do
    if ← accept .closeBracket then return []
    if !first then
      if !(← accept .comma) then malformed
    if ← accept .closeBracket then return []
    else if ← accept .key then
      let item ← collection none (.mapping .mapping) (bracketEntry fuel)
      return item :: (← bracketItems fuel false)
    else
      let item ← node false false fuel
      return item :: (← bracketItems fuel false)

def bracketEntry : Nat → Read (List (Nat × Nat))
  | 0 => malformed
  | fuel + 1 => do
    let ends := [Token.comma, .closeBracket]
    let key ← nodeUnless (.value :: ends) false false fuel
    return [(key, ← valueUnless ends false false fuel)]

def braceEntries : Nat → Bool → Read (List (Nat × Nat))
  | 0, _ => malformed
  | fuel + 1, first => do
    if ← accept .closeBrace then return []
    if !first then
      if !(← accept .comma) then malformed
    if ← accept .closeBrace then return []
    else if ← accept .key then
      let ends := [Token.comma, .closeBrace]
      let key ← nodeUnless (.value :: ends) false false fuel
      let value ← valueUnless ends false false fuel
      return (key, value) :: (← braceEntries fuel false)
    else
      let key ← node false false fuel
      let value ← add .empty
      return (key, value) :: (← braceEntries fuel false)

end

def directives : Nat → Bool → List (String × String) → Read (List (String × String))
  | 0, _, _ => malformed
  | fuel + 1, versioned, handles => do
    match ← peek with
    | some (.version major) =>
      if versioned || major ≠ 1 then malformed
      advance
      directives fuel true handles
    | some (.handle name start) =>
      if handles.any (·.1 = name) then malformed
      advance
      directives fuel versioned (handles ++ [(name, start)])
    | some .directive =>
      advance
      directives fuel versioned handles
    | _ => return handles

def skipEnds : Nat → Read Unit
  | 0 => malformed
  | fuel + 1 => do if ← accept .documentEnd then skipEnds fuel

def startsDocument : Token → Bool
  | .version _ | .handle .. | .directive | .documentStart => true
  | _ => false

-- The one document of a text; an empty node if the text holds none.
def only (fuel : Nat) : Read Nat := do
  match ← peek with
  | none => add .empty
  | some t =>
    let root ← if startsDocument t then do
        let handles ← directives fuel false []
        modify fun s => { s with handles := handles ++ usualHandles }
        if !(← accept .documentStart) then malformed
        match ← peek with
        | none | some .documentEnd => add .empty
        | some t => if startsDocument t then add .empty else node true false fuel
      else node true false fuel
    skipEnds fuel
    if (← peek).isSome then malformed
    return root

def ofText (s : String) : Except Fault Document :=
  let (tokens, fault) := tokens s
  (only (4 * tokens.length + 4) |>.run { tokens, fault }).map fun (root, s) => ⟨s.nodes, root⟩

end Document

end LabelPlaylists.Yaml
