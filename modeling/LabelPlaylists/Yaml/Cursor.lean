import LabelPlaylists.Yaml.Fault

/-!
A place in a YAML text: what is left of it, and how many characters, lines and columns lie before. A byte
order mark takes no column.
-/

namespace LabelPlaylists.Yaml

-- Ends a line: a line feed, a next line, a line separator or a paragraph separator.
def isBreak (c : Char) : Bool :=
  c = '\n' || c.toNat = 0x85 || c.toNat = 0x2028 || c.toNat = 0x2029

def isBlank (c : Char) : Bool := c = ' ' || c = '\t'

-- A character of names: a letter, a digit, a hyphen or an underscore, all of them ASCII.
def isNameChar (c : Char) : Bool := c.isAlphanum || c = '-' || c = '_'

-- The character that a line break counts as: the first two are line feeds.
def unifiedBreak (c : Char) : Char := if c.toNat = 0x85 then '\n' else c

-- A text in which every line ends in a single character.
def unifiedLines : List Char → List Char
  | '\r' :: '\n' :: rest => '\n' :: unifiedLines rest
  | '\r' :: rest => '\n' :: unifiedLines rest
  | c :: rest => c :: unifiedLines rest
  | [] => []

structure Cursor where
  rest : List Char
  index : Nat := 0
  line : Nat := 0
  column : Nat := 0
deriving Repr

namespace Cursor

def peek (c : Cursor) : Option Char := c.rest.head?

def peekSecond (c : Cursor) : Option Char := c.rest[1]?

def next (c : Cursor) : Cursor :=
  match c.rest with
  | [] => c
  | d :: rest =>
    if isBreak d then ⟨rest, c.index + 1, c.line + 1, 0⟩
    else ⟨rest, c.index + 1, c.line, if d.toNat = 0xFEFF then c.column else c.column + 1⟩

def skip (c : Cursor) : Nat → Cursor
  | 0 => c
  | n + 1 => c.next.skip n

-- The characters from here on that have a property, and the place behind them.
def takeWhile (p : Char → Bool) (c : Cursor) : List Char × Cursor :=
  let taken := c.rest.takeWhile p
  (taken, c.skip taken.length)

def skipWhile (p : Char → Bool) (c : Cursor) : Cursor := (c.takeWhile p).2

def skipSpaces (c : Cursor) : Cursor := c.skipWhile (· = ' ')

def sees (p : Char → Bool) (c : Cursor) : Bool := c.peek.any p

def atLineEnd (c : Cursor) : Bool := c.peek.all isBreak

def atSpace (c : Cursor) : Bool := c.peek.all fun d => d = ' ' || isBreak d

def skipComment (c : Cursor) : Cursor :=
  if c.sees (· = '#') then c.skipWhile (!isBreak ·) else c

def skipBreak (c : Cursor) : Cursor := if c.sees isBreak then c.next else c

def skipLine (c : Cursor) : Except Fault Cursor :=
  let c := c.skipSpaces.skipComment
  if c.atLineEnd then .ok c.skipBreak else .error .malformed

end Cursor

def isGap (d : Option Char) : Bool := d.all fun c => isBlank c || isBreak c

namespace Cursor

-- Three characters of a kind, and nothing close behind.
def seesMark (mark : Char) (c : Cursor) : Bool :=
  match c.rest with
  | x :: y :: z :: rest => x = mark && y = mark && z = mark && isGap rest.head?
  | _ => false

-- Before a mark that starts or ends a document, wherever on its line.
def seesDocumentMark (c : Cursor) : Bool := c.seesMark '-' || c.seesMark '.'

theorem skip_zero (c : Cursor) : c.skip 0 = c := rfl

theorem next_rest (c : Cursor) : c.next.rest = c.rest.drop 1 := by
  unfold next
  split <;> rename_i h
  · simp [h]
  · split <;> simp [h]

theorem skip_rest (c : Cursor) (n : Nat) : (c.skip n).rest = c.rest.drop n := by
  induction n generalizing c with
  | zero => simp [skip]
  | succ n ih => rw [skip, ih, next_rest, List.drop_drop, Nat.add_comm]

end Cursor

end LabelPlaylists.Yaml
