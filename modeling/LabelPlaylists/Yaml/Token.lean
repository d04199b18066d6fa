import LabelPlaylists.Text.Utf8
import LabelPlaylists.Yaml.Block
import LabelPlaylists.Yaml.Plain

/-!
Tokens of a YAML text. Indentation shows as tokens of its own: a block collection starts where a dash
or a key stands further right than the collection around it, and ends at the first token further left.

Whether something is a key is known only at the colon behind it. So everything that may turn out to be
one is remembered, one thing for each level of brackets, as long as the colon can still follow: on the
same line and within 1024 characters. What stands at the very indentation of its collection must be a key.
-/

namespace LabelPlaylists.Yaml

inductive Token where
  -- A directive that names the version of YAML, by its major number.
  | version (major : Nat)
  | handle (name start : String)
  | directive
  | documentStart
  | documentEnd
  | sequenceStart
  | mappingStart
  | blockEnd
  | openBracket
  | closeBracket
  | openBrace
  | closeBrace
  | comma
  | dash
  | key
  | value
  | alias (name : String)
  | anchor (name : String)
  | tag (handle : Option String) (suffix : String)
  | scalar (text : String) (isPlain : Bool)
deriving DecidableEq, Repr

/-! ## Names and tags -/

def anchorName (c : Cursor) : Except Fault (String × Cursor) :=
  let (name, c) := c.next.takeWhile isNameChar
  let ends : Bool := isGap c.peek || c.sees ("?:,]\x7d%@\x60".toList.contains ·)
  if name.isEmpty || !ends then .error .malformed else .ok (String.ofList name, c)

-- A handle of tags: an exclamation mark, or a name between two of them.
def tagHandle (c : Cursor) : Except Fault (String × Cursor) :=
  if !c.sees (· = '!') then .error .malformed
  else if c.peekSecond = some ' ' then .ok ("!", c.next)
  else
    let (name, c) := c.next.takeWhile isNameChar
    if c.sees (· = '!') then .ok (String.ofList ('!' :: name ++ ['!']), c.next)
    else .error .malformed

def isTagChar (c : Char) : Bool :=
  c.isAlphanum || "-;/?:@&=+$,_.!~*()[]%\x27".toList.contains c

def percentOctet? : List Char → Option Nat
  | '%' :: x :: y :: _ => hexNumber? [x, y]
  | _ => none

def percentOctets : Nat → List Nat → Cursor → Except Fault (List Nat × Cursor)
  | 0, read, c => .ok (read, c)
  | fuel + 1, read, c =>
    if !c.sees (· = '%') then .ok (read, c)
    else
      match percentOctet? c.rest with
      | none => .error .malformed
      | some b => percentOctets fuel (read ++ [b]) (c.skip 3)

-- The text of a tag. Percent escapes write the octets of characters.
def tagText : Nat → List Char → Cursor → Except Fault (String × Cursor)
  | 0, _, _ => .error .malformed
  | fuel + 1, read, c => do
    let (part, c) := c.takeWhile fun d => isTagChar d && d ≠ '%'
    let read := read ++ part
    if c.sees (· = '%') then
      let (octets, c) ← percentOctets c.rest.length [] c
      match Text.Utf8.strict? 0 octets with
      | none => .error .malformed
      | some characters => tagText fuel (read ++ characters) c
    else if read.isEmpty then .error .malformed
    else .ok (String.ofList read, c)

def tagSuffix (c : Cursor) : Except Fault (String × Cursor) := tagText (c.rest.length + 1) [] c

-- A tag: verbatim between angle brackets, a lone exclamation mark, or a handle and a suffix.
def tagToken (c : Cursor) : Except Fault (Token × Cursor) := do
  let (tag, c) ←
    if c.peekSecond = some '<' then
      let (suffix, c) ← tagSuffix (c.skip 2)
      if c.sees (· = '>') then .ok (Token.tag none suffix, c.next) else .error .malformed
    else if isGap c.peekSecond then .ok (Token.tag none "!", c.next)
    else
      let word := c.next.rest.takeWhile fun d => d ≠ ' ' && !isBreak d
      let (handle, c) ← if word.contains '!' then tagHandle c else .ok ("!", c.next)
      let (suffix, c) ← tagSuffix c
      .ok (Token.tag (some handle) suffix, c)
  if c.atSpace then .ok (tag, c) else .error .malformed

/-! ## Directives -/

def versionNumber (c : Cursor) : Except Fault (Nat × Cursor) :=
  let (digits, c) := c.takeWhile Char.isDigit
  if digits.isEmpty then .error .malformed
  else if digits.length > 4300 then .error .notANumber
  else .ok (Text.asciiValue digits, c)

def directiveToken (c : Cursor) : Except Fault (Token × Cursor) := do
  let (name, c) := c.next.takeWhile isNameChar
  if name.isEmpty || !c.atSpace then .error .malformed
  else
    let (token, c) ←
      if name = "YAML".toList then
        let (major, c) ← versionNumber c.skipSpaces
        if !c.sees (· = '.') then .error .malformed
        else
          let (_, c) ← versionNumber c.next
          if c.atSpace then .ok (Token.version major, c) else .error .malformed
      else if name = "TAG".toList then
        let (handle, c) ← tagHandle c.skipSpaces
        if !c.sees (· = ' ') then .error .malformed
        else
          let (start, c) ← tagSuffix c.skipSpaces
          if c.atSpace then .ok (Token.handle handle start, c) else .error .malformed
      else .ok (Token.directive, c.skipWhile (!isBreak ·))
    .ok (token, ← c.skipLine)

/-! ## The reader -/

structure PossibleKey where
  place : Nat
  required : Bool
  index : Nat
  line : Nat
  column : Nat
deriving Repr

structure Reader where
  cursor : Cursor
  depth : Nat := 0
  -- The indentation of the block collection, and of those around it.
  indent : Int := -1
  indents : List Int := []
  keyAllowed : Bool := true
  -- What may turn out to be a key, by the number of open brackets.
  possible : List (Nat × PossibleKey) := []
  -- The tokens so far, the last one first.
  tokens : List Token := []
deriving Repr

namespace Reader

def inFlow (r : Reader) : Bool := r.depth ≠ 0

def emit (t : Token) (r : Reader) : Reader := { r with tokens := t :: r.tokens }

-- Puts tokens in front of all but a number of tokens.
def insertAt (place : Nat) (ts : List Token) (r : Reader) : Reader :=
  let after := r.tokens.take (r.tokens.length - place)
  let before := r.tokens.drop (r.tokens.length - place)
  { r with tokens := after ++ ts.reverse ++ before }

-- Ends the block collections that are indented further than a column.
def unwindTo (column : Int) (r : Reader) : Reader :=
  if r.inFlow then r else go r.indents r
where
  go : List Int → Reader → Reader
    | [], r => r
    | outer :: rest, r =>
      if column < r.indent then
        go rest { r with indent := outer, indents := rest, tokens := .blockEnd :: r.tokens }
      else r

-- A block collection starts at a column, unless one is there already.
def indentTo (column : Nat) (place : Nat) (start : Token) (r : Reader) : Reader :=
  if r.indent < column then
    { r with indent := column, indents := r.indent :: r.indents }.insertAt place [start]
  else r

-- Nothing at this level of brackets turns out to be a key.
def dropKey (r : Reader) : Except Fault Reader :=
  match r.possible.lookup r.depth with
  | none => .ok r
  | some key =>
    if key.required then .error .malformed
    else .ok { r with possible := r.possible.filter (·.1 ≠ r.depth) }

-- What starts here may turn out to be a key.
def noteKey (r : Reader) : Except Fault Reader :=
  if !r.keyAllowed then .ok r
  else do
    let r ← r.dropKey
    let key : PossibleKey := ⟨r.tokens.length, !r.inFlow && r.indent = r.cursor.column,
      r.cursor.index, r.cursor.line, r.cursor.column⟩
    .ok { r with possible := (r.depth, key) :: r.possible }

def isStale (r : Reader) (key : PossibleKey) : Bool :=
  key.line ≠ r.cursor.line || r.cursor.index - key.index > 1024

def dropStale (r : Reader) : Except Fault Reader :=
  if r.possible.any fun (_, key) => r.isStale key && key.required then .error .malformed
  else .ok { r with possible := r.possible.filter fun (_, key) => !r.isStale key }

-- Past spaces, comments and line breaks; a key may start on a new line.
def skipGap : Nat → Reader → Reader
  | 0, r => r
  | fuel + 1, r =>
    let c := r.cursor.skipSpaces.skipComment
    if c.sees isBreak then
      skipGap fuel { r with cursor := c.next, keyAllowed := r.keyAllowed || !r.inFlow }
    else { r with cursor := c }

-- A directive or a mark of documents, which ends all block collections.
def outside (read : Cursor → Except Fault (Token × Cursor)) (r : Reader) : Except Fault Reader := do
  let r ← (r.unwindTo (-1)).dropKey
  let (token, cursor) ← read r.cursor
  .ok { r with keyAllowed := false, cursor, tokens := token :: r.tokens }

def opening (t : Token) (r : Reader) : Except Fault Reader := do
  let r ← r.noteKey
  .ok { r.emit t with depth := r.depth + 1, keyAllowed := true, cursor := r.cursor.next }

def closing (t : Token) (r : Reader) : Except Fault Reader := do
  let r ← r.dropKey
  .ok { r.emit t with depth := r.depth - 1, keyAllowed := false, cursor := r.cursor.next }

def comma (r : Reader) : Except Fault Reader := do
  let r ← { r with keyAllowed := true }.dropKey
  .ok { r.emit .comma with cursor := r.cursor.next }

-- The dash of an entry, or the question mark of a key.
def indicator (t start : Token) (allowed : Bool) (r : Reader) : Except Fault Reader := do
  if !r.inFlow && !r.keyAllowed then .error .malformed
  else
    let r := if r.inFlow then r else r.indentTo r.cursor.column r.tokens.length start
    let r ← { r with keyAllowed := allowed }.dropKey
    .ok { r.emit t with cursor := r.cursor.next }

def colon (r : Reader) : Except Fault Reader := do
  match r.possible.lookup r.depth with
  | some key =>
    let r := r.insertAt key.place [.key]
    let r := if r.inFlow then r else r.indentTo key.column key.place .mappingStart
    .ok { r.emit .value with
      possible := r.possible.filter (·.1 ≠ r.depth), keyAllowed := false, cursor := r.cursor.next }
  | none =>
    if !r.inFlow && !r.keyAllowed then .error .malformed
    else
      let r := if r.inFlow then r else r.indentTo r.cursor.column r.tokens.length .mappingStart
      .ok { r.emit .value with keyAllowed := !r.inFlow, cursor := r.cursor.next }

def keyLike (read : Cursor → Except Fault (Token × Cursor)) (r : Reader) : Except Fault Reader := do
  let r ← r.noteKey
  let (token, cursor) ← read r.cursor
  .ok { r.emit token with keyAllowed := false, cursor }

def quoted (double : Bool) : Reader → Except Fault Reader :=
  keyLike fun c => do
    let (text, c) ← quotedScalar double c
    .ok (.scalar text false, c)

def plain (r : Reader) : Except Fault Reader := do
  let r ← r.noteKey
  let (text, lineEnds, cursor) := plainScalar r.inFlow (r.indent + 1) r.cursor
  .ok { r.emit (.scalar text true) with keyAllowed := lineEnds, cursor }

def block (isFolded : Bool) (r : Reader) : Except Fault Reader := do
  let r ← { r with keyAllowed := true }.dropKey
  let (text, cursor) ← Block.scalar isFolded r.indent r.cursor
  .ok { r.emit (.scalar text false) with cursor }

def startsPlain (r : Reader) (c : Char) : Bool :=
  !(isBlank c || isBreak c || isFlowSign c || "-?:#&*!|>%@\x27\x22\x60".toList.contains c) ||
    !isGap r.cursor.peekSecond && (c = '-' || !r.inFlow && (c = '?' || c = ':'))

def token (c : Char) (r : Reader) : Except Fault Reader :=
  let atStart : Bool := r.cursor.column = 0
  -- a sign stands alone if a gap follows it, and among brackets always
  let alone : Bool := isGap r.cursor.peekSecond
  if atStart && c = '%' then r.outside directiveToken
  else if atStart && r.cursor.seesMark '-' then
    r.outside fun c => .ok (.documentStart, c.skip 3)
  else if atStart && r.cursor.seesMark '.' then r.outside fun c => .ok (.documentEnd, c.skip 3)
  else if c = '[' then r.opening .openBracket
  else if c = '\x7b' then r.opening .openBrace
  else if c = ']' then r.closing .closeBracket
  else if c = '\x7d' then r.closing .closeBrace
  else if c = ',' then r.comma
  else if c = '-' && alone then r.indicator .dash .sequenceStart true
  else if c = '?' && (r.inFlow || alone) then r.indicator .key .mappingStart !r.inFlow
  else if c = ':' && (r.inFlow || alone) then r.colon
  else if c = '*' then r.keyLike fun c => (anchorName c).map fun (name, c) => (.alias name, c)
  else if c = '&' then r.keyLike fun c => (anchorName c).map fun (name, c) => (.anchor name, c)
  else if c = '!' then r.keyLike tagToken
  else if c = '|' && !r.inFlow then r.block false
  else if c = '>' && !r.inFlow then r.block true
  else if c = Text.singleQuote then r.quoted false
  else if c = Text.doubleQuote then r.quoted true
  else if r.startsPlain c then r.plain
  else .error .malformed

-- The tokens that can be used before the text is read on. What may turn out to be a key cannot, nor
-- what stands behind it.
def settled (r : Reader) : List Token :=
  let open' := r.possible.filter fun (_, key) => key.required || !r.isStale key
  let place := (open'.map (·.2.place)).foldl min r.tokens.length
  (r.tokens.drop (r.tokens.length - place)).reverse

-- Reads the next token. At the end of the text there is none.
def step (r : Reader) : Except Fault (Reader × Bool) := do
  let r ← (skipGap (r.cursor.rest.length + 1) r).dropStale
  let r := r.unwindTo r.cursor.column
  match r.cursor.peek with
  | none => return (← (r.unwindTo (-1)).dropKey, true)
  | some c => return (← r.token c, false)

-- Reads on to the end. What is wrong with the text counts only once the tokens before it have been
-- used.
def run : Nat → Reader → List Token × Option Fault
  | 0, r => (r.settled, some .malformed)
  | fuel + 1, r =>
    match r.step with
    | .error f => (r.settled, some f)
    | .ok (r, true) => (r.tokens.reverse, none)
    | .ok (r, false) => run fuel r

end Reader

-- A character that may stand in a YAML text: no control character but tab and line ends.
def isText (c : Char) : Bool :=
  let n := c.toNat
  n = 9 || n = 10 || n = 13 || 32 ≤ n && n ≤ 126 || n = 0x85 || 0xA0 ≤ n && n ≤ 0xFFFD || 0x10000 ≤ n

-- The tokens of a text, and what is wrong behind the last of them. A byte order mark may stand at
-- its start.
def tokens (s : String) : List Token × Option Fault :=
  if !s.toList.all isText then ([], some .malformed)
  else
    let cursor : Cursor := ⟨unifiedLines s.toList, 0, 0, 0⟩
    let cursor := if cursor.sees (·.toNat = 0xFEFF) then cursor.next else cursor
    Reader.run (cursor.rest.length + 1) { cursor }

end LabelPlaylists.Yaml
