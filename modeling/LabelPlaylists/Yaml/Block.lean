import LabelPlaylists.Yaml.Cursor

/-!
Block scalars, whose lines are indented below a bar or a greater-than sign. A literal one keeps its
line breaks. A folded one turns a single break between two lines that start with no blank into a space.
The header may give the indentation, and whether the breaks at the end are kept or dropped.
-/

namespace LabelPlaylists.Yaml

-- What becomes of the line breaks at the end of a block scalar.
inductive Ending where
  | clip
  | strip
  | keep
deriving DecidableEq, Repr

namespace Block

def ending? : Char → Option Ending
  | '+' => some .keep
  | '-' => some .strip
  | _ => none

-- The indentation of a header. Zero is refused.
def indentation? (c : Cursor) : Except Fault (Option Nat × Cursor) :=
  match c.peek with
  | none => .ok (none, c)
  | some d =>
    if !d.isDigit then .ok (none, c)
    else if d = '0' then .error .malformed
    else .ok (some (d.toNat - 48), c.next)

def header (c : Cursor) : Except Fault (Ending × Option Nat × Cursor) := do
  match c.peek.bind ending? with
  | some ending =>
    let (indentation, c) ← indentation? c.next
    .ok (ending, indentation, c)
  | none =>
    let (indentation, c) ← indentation? c
    match indentation, c.peek.bind ending? with
    | some _, some ending => .ok (ending, indentation, c.next)
    | _, _ => .ok (.clip, indentation, c)

-- Empty lines at the start, and the greatest column that their spaces and those of the first line
-- reach.
def leading : Nat → List Char → Nat → Cursor → List Char × Nat × Cursor
  | 0, breaks, column, c => (breaks, column, c)
  | fuel + 1, breaks, column, c =>
    match c.peek with
    | none => (breaks, column, c)
    | some d =>
      if d = ' ' then leading fuel breaks (max column c.next.column) c.next
      else if isBreak d then leading fuel (breaks ++ [unifiedBreak d]) column c.next
      else (breaks, column, c)

def skipTo (indent : Nat) (c : Cursor) : Cursor :=
  c.skip (((c.rest.takeWhile (· = ' ')).length).min (indent - c.column))

def emptyLines (indent : Nat) : Nat → List Char → Cursor → List Char × Cursor
  | 0, breaks, c => (breaks, c)
  | fuel + 1, breaks, c =>
    let c := skipTo indent c
    match c.peek with
    | none => (breaks, c)
    | some d =>
      if isBreak d then emptyLines indent fuel (breaks ++ [unifiedBreak d]) c.next
      else (breaks, c)

def hasLine (indent : Nat) (c : Cursor) : Bool := c.column = indent && c.peek.isSome

-- What stands between two lines of a block: the first break, if the text goes on behind it, and the
-- breaks of the empty lines.
def between (isFolded : Bool) (first : Char) (breaks : List Char) (smooth : Bool) : List Char :=
  if isFolded && first = '\n' && smooth then (if breaks.isEmpty then [' '] else breaks)
  else first :: breaks

-- The lines of a block in reverse order of characters, then the last break and those behind it.
def lines (isFolded : Bool) (indent : Nat) :
    Nat → List Char → Cursor → List Char × List Char × List Char × Cursor
  | 0, read, c => (read, [], [], c)
  | fuel + 1, read, c =>
    let (line, c') := c.takeWhile (!isBreak ·)
    let read := line.reverse ++ read
    match c'.peek with
    | none => (read, [], [], c')
    | some first =>
      let first := unifiedBreak first
      let (breaks, c') := emptyLines indent (c'.rest.length + 1) [] c'.next
      if hasLine indent c' then
        let smooth := !c.sees isBlank && !c'.sees isBlank
        lines isFolded indent fuel ((between isFolded first breaks smooth).reverse ++ read) c'
      else (read, [first], breaks, c')

-- A block scalar from its sign on, below a collection of the given indentation.
def scalar (isFolded : Bool) (parent : Int) (c : Cursor) : Except Fault (String × Cursor) := do
  let (ending, indentation, c) ← header c.next
  if !c.atSpace then .error .malformed
  else
    let c ← c.skipLine
    let least := (max (parent + 1) 1).toNat
    let (indent, breaks, c) := match indentation with
      | none =>
        let (breaks, column, c) := leading c.rest.length [] 0 c
        (max least column, breaks, c)
      | some n =>
        let indent := least + n - 1
        let (breaks, c) := emptyLines indent (c.rest.length + 1) [] c
        (indent, breaks, c)
    let (read, last, breaks, c) :=
      if hasLine indent c then lines isFolded indent c.rest.length breaks.reverse c
      else ([], [], breaks, c)
    let tail := match ending with
      | .strip => []
      | .clip => last
      | .keep => last ++ breaks
    .ok (String.ofList (read.reverse ++ tail), c)

end Block

end LabelPlaylists.Yaml
