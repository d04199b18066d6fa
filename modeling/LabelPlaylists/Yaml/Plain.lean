import LabelPlaylists.Yaml.Quoted

/-!
Plain scalars, which stand without quotes. One ends at a colon with a gap behind it, at a comment, at a
line that is indented less, and among brackets at the signs that structure them. Its lines fold as
those of quoted scalars do.
-/

namespace LabelPlaylists.Yaml

def isFlowSign (c : Char) : Bool := c = ',' || c = '[' || c = ']' || c = '\x7b' || c = '\x7d'

def plainLength (inFlow : Bool) : List Char → Nat
  | [] => 0
  | c :: rest =>
    if isBlank c || isBreak c then 0
    else if c = ':' && (isGap rest.head? || inFlow && rest.head?.any isFlowSign) then 0
    else if inFlow && (isFlowSign c || c = '?') then 0
    else plainLength inFlow rest + 1

-- Further line breaks with the spaces around them, or none if a document starts or ends there.
def plainBreaks : Nat → List Char → Cursor → Option (List Char) × Cursor
  | 0, breaks, c => (some breaks, c)
  | fuel + 1, breaks, c =>
    if c.seesDocumentMark then (none, c)
    else
      let c := c.skipSpaces
      match c.peek with
      | none => (some breaks, c)
      | some d =>
        if isBreak d then plainBreaks fuel (breaks ++ [unifiedBreak d]) c.next else (some breaks, c)

-- The gap behind a word: its text, empty if the scalar ends there, and whether it holds a line
-- break.
def plainGap (c : Cursor) : List Char × Bool × Cursor :=
  let (spaces, c) := c.takeWhile (· = ' ')
  match c.peek with
  | none => (spaces, false, c)
  | some d =>
    if isBreak d then
      match plainBreaks c.rest.length [] c.next with
      | (none, c) => ([], true, c)
      | (some breaks, c) => (folded d breaks, true, c)
    else (spaces, false, c)

-- The words of a plain scalar, in reverse order of characters, and whether a line ends behind the
-- last.
def plainWords (inFlow : Bool) (indent : Int) :
    Nat → List Char → List Char → Bool → Cursor → List Char × Bool × Cursor
  | 0, read, _, lineEnds, c => (read, lineEnds, c)
  | fuel + 1, read, gap, lineEnds, c =>
    let length := plainLength inFlow c.rest
    if c.sees (· = '#') || length = 0 then (read, lineEnds, c)
    else
      let read := (c.rest.take length).reverse ++ gap.reverse ++ read
      match plainGap (c.skip length) with
      | (gap, lineEnds, c) =>
        if gap.isEmpty || c.sees (· = '#') || !inFlow && decide (c.column < indent) then
          (read, lineEnds, c)
        else plainWords inFlow indent fuel read gap lineEnds c

def plainScalar (inFlow : Bool) (indent : Int) (c : Cursor) : String × Bool × Cursor :=
  let (read, lineEnds, c) := plainWords inFlow indent (c.rest.length + 1) [] [] false c
  (String.ofList read.reverse, lineEnds, c)

end LabelPlaylists.Yaml
