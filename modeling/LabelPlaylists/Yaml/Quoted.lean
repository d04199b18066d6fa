import LabelPlaylists.Json.Reader
import LabelPlaylists.Text.Quoted
import LabelPlaylists.Yaml.Cursor

/-!
Quoted scalars. Between single quotes only the quote itself is written twice; between double quotes a
backslash escapes. A line break with the blanks around it folds to one space, and every further
break is kept; an escaped line break vanishes.
-/

namespace LabelPlaylists.Yaml

def escaped? (c : Char) : Option Char :=
  match c with
  | '0' => some '\x00'
  | 'a' => some '\x07'
  | 'b' => some '\x08'
  | 't' | '\t' => some '\t'
  | 'n' => some '\n'
  | 'v' => some '\x0b'
  | 'f' => some '\x0c'
  | 'r' => some '\r'
  | 'e' => some '\x1b'
  | 'N' => some (Char.ofNat 0x85)
  | '_' => some (Char.ofNat 0xA0)
  | 'L' => some (Char.ofNat 0x2028)
  | 'P' => some (Char.ofNat 0x2029)
  | ' ' | '/' => some c
  | _ => if c = Text.doubleQuote ∨ c = Text.backslash then some c else none

def escapeWidth? : Char → Option Nat
  | 'x' => some 2
  | 'u' => some 4
  | 'U' => some 8
  | _ => none

def hexNumber? (s : List Char) : Option Nat :=
  s.foldlM (fun n c => (Json.hexValue? c).map (16 * n + ·)) 0

-- The character of a number. Half of a surrogate pair stands for no character of its own.
def numbered (n : Nat) : Except Fault Char :=
  if 0x10FFFF < n then .error (.noCharacter n)
  else if n.isValidChar then .ok (Char.ofNat n)
  else .ok (Char.ofNat 0xFFFD)

-- Line breaks with the blanks around them. No document may start or end here.
def quotedBreaks : Nat → List Char → Cursor → Except Fault (List Char × Cursor)
  | 0, breaks, c => .ok (breaks, c)
  | fuel + 1, breaks, c =>
    if c.seesDocumentMark then .error .malformed
    else
      let c := c.skipWhile isBlank
      match c.peek with
      | none => .ok (breaks, c)
      | some d =>
        if isBreak d then quotedBreaks fuel (breaks ++ [unifiedBreak d]) c.next else .ok (breaks, c)

-- What a line break counts for, by the breaks that follow it.
def folded (first : Char) (further : List Char) : List Char :=
  if unifiedBreak first ≠ '\n' then first :: further
  else if further.isEmpty then [' ']
  else further

def quotedGap (c : Cursor) : Except Fault (List Char × Cursor) := do
  let (blanks, c) := c.takeWhile isBlank
  match c.peek with
  | none => .error .malformed
  | some d =>
    if isBreak d then
      let (breaks, c) ← quotedBreaks c.rest.length [] c.next
      .ok (folded d breaks, c)
    else .ok (blanks, c)

-- The characters up to a blank, a line break or the closing quote, in reverse order.
def quotedWord (double : Bool) : Nat → List Char → Cursor → Except Fault (List Char × Cursor)
  | 0, read, c => .ok (read, c)
  | fuel + 1, read, c =>
    match c.peek with
    | none => .ok (read, c)
    | some d =>
      if isBlank d || isBreak d then .ok (read, c)
      else if !double && d = Text.singleQuote then
        if c.peekSecond = some Text.singleQuote then quotedWord double fuel (d :: read) (c.skip 2)
        else .ok (read, c)
      else if double && d = Text.doubleQuote then .ok (read, c)
      else if double && d = Text.backslash then do
        let c := c.next
        match c.peek with
        | none => .error .malformed
        | some e =>
          if let some character := escaped? e then quotedWord double fuel (character :: read) c.next
          else if let some width := escapeWidth? e then
            let digits := c.next.rest.take width
            if digits.length < width then .error .malformed
            else
              match hexNumber? digits with
              | none => .error .malformed
              | some n => quotedWord double fuel ((← numbered n) :: read) (c.next.skip width)
          else if isBreak e then
            let (breaks, c) ← quotedBreaks c.rest.length [] c.next
            quotedWord double fuel (breaks.reverse ++ read) c
          else .error .malformed
      else quotedWord double fuel (d :: read) c.next

-- The text up to the closing quote, from behind the opening one.
def quotedRest (double : Bool) : Nat → List Char → Cursor → Except Fault (String × Cursor)
  | 0, _, _ => .error .malformed
  | fuel + 1, read, c => do
    let (read, c) ← quotedWord double c.rest.length read c
    if c.peek = some (if double then Text.doubleQuote else Text.singleQuote) then
      .ok (String.ofList read.reverse, c.next)
    else
      let (gap, c) ← quotedGap c
      quotedRest double fuel (gap.reverse ++ read) c

def quotedScalar (double : Bool) (c : Cursor) : Except Fault (String × Cursor) :=
  quotedRest double (c.rest.length + 1) [] c.next

end LabelPlaylists.Yaml
