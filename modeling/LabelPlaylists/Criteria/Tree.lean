import LabelPlaylists.Criteria.Token

/-!
Predicate trees, and reading them from tokens.

    expression  := conjunction ("or" conjunction)*
    conjunction := negation ("and" negation)*
    negation    := "not" negation | primary
    primary     := "(" expression ")" | name operator literal | name
    literal     := string | number | "true" | "false"

Parentheses and the word not nest at most a hundred deep, both counted together. Whether a name is
an attribute, and whether the operator and the literal suit it, is no matter of the tree.
-/

namespace LabelPlaylists.Criteria

-- A predicate on tracks. Positions count the characters before the name.
inductive Tree where
  | bare (name : String) (position : Nat)
  | comparison (name : String) (operator : Operator) (value : Literal) (position : Nat)
  | not (operand : Tree)
  | and (operands : List Tree)
  | or (operands : List Tree)
  | foreign
deriving Repr, Inhabited

namespace Tree

-- How deep parentheses and the word not may nest.
def maxNesting : Nat := 100

def maxDigits : Nat := 4300

-- One operand stands for itself.
def join (connective : List Tree → Tree) : List Tree → Tree
  | [t] => t
  | ts => connective ts

-- Operands with the given lexeme between them, as many as there are. The first argument bounds
-- their number.
def operands (separator : Lexeme) (operand : List Token → Except Error (Tree × List Token)) :
    Nat → List Token → Except Error (List Tree × List Token)
  | 0, ts => .ok ([], ts)
  | n + 1, ts => do
    let (t, rest) ← operand ts
    match rest with
    | k :: more =>
      if k.lexeme = separator then
        let (others, rest) ← operands separator operand n more
        .ok (t :: others, rest)
      else .ok ([t], rest)
    | [] => .ok ([t], [])

def expression (negation : List Token → Except Error (Tree × List Token)) (ts : List Token) :
    Except Error (Tree × List Token) := do
  let conjunction (ts : List Token) : Except Error (Tree × List Token) := do
    let (found, rest) ← operands .and negation (ts.length + 1) ts
    .ok (join .and found, rest)
  let (found, rest) ← operands .or conjunction (ts.length + 1) ts
  .ok (join .or found, rest)

def literal (t : Token) : Except Error Literal :=
  match t.lexeme with
  | .string value => .ok (.text value)
  | .number digits =>
    if digits.length > maxDigits then .error ⟨.numberTooLong, t.position⟩
    else .ok (.number (Text.digitsValue digits.toList))
  | .true => .ok (.flag true)
  | .false => .ok (.flag false)
  | l => .error ⟨.expectedValue l.value, t.position⟩

-- A name, alone or compared with a literal. `stop` is the length of the text.
def leaf (stop : Nat) (name : String) (position : Nat) :
    List Token → Except Error (Tree × List Token)
  | ⟨.operator o, _, _⟩ :: t :: rest => do
    let value ← literal t
    .ok (.comparison (name.map Char.toLower) o value position, rest)
  | [⟨.operator _, _, _⟩] => .error ⟨.unexpectedEnd, stop⟩
  | rest => .ok (.bare (name.map Char.toLower) position, rest)

-- A negation. The first argument says how much deeper parentheses and the word not may nest.
def negation (stop : Nat) : Nat → List Token → Except Error (Tree × List Token)
  | _, [] => .error ⟨.unexpectedEnd, stop⟩
  | depth, ⟨.not, position, _⟩ :: rest =>
    match depth with
    | 0 => .error ⟨.nestedTooDeeply, position⟩
    | depth + 1 => do
      let (t, rest) ← negation stop depth rest
      .ok (.not t, rest)
  | depth, ⟨.openParenthesis, position, _⟩ :: rest =>
    match depth with
    | 0 => .error ⟨.nestedTooDeeply, position⟩
    | depth + 1 => do
      let (t, rest) ← expression (negation stop depth) rest
      match rest with
      | ⟨.closeParenthesis, _, _⟩ :: rest => .ok (t, rest)
      | other :: _ => .error ⟨.expectedParenthesis, other.position⟩
      | [] => .error ⟨.expectedParenthesis, stop⟩
  | _, ⟨.word name, position, _⟩ :: rest => leaf stop name position rest
  | _, ⟨l, position, _⟩ :: _ => .error ⟨.expectedAttribute l.value, position⟩

def ofTokens (stop : Nat) (ts : List Token) : Except Error Tree :=
  if ts.isEmpty then .error ⟨.empty, 0⟩
  else do
    let (t, rest) ← expression (negation stop maxNesting) ts
    match rest with
    | [] => .ok t
    | k :: _ => .error ⟨.unexpectedToken k.lexeme.value, k.position⟩

def ofText (text : String) : Except Error Tree := do
  ofTokens text.length (← tokens text)

end Tree

end LabelPlaylists.Criteria
