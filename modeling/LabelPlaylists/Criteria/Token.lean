import LabelPlaylists.Criteria.Error
import LabelPlaylists.Text.Blank
import LabelPlaylists.Text.Digit
import LabelPlaylists.Text.Word

/-!
Tokens of criteria text. Blanks separate tokens and mean nothing else. A string stands between
single or double quotes, and a backslash takes the next character as it is. A number is a run of
digits that no letter follows. The words and, or, not, true and false are keywords in any case.
-/

namespace LabelPlaylists.Criteria

inductive Lexeme where
  | openParenthesis
  | closeParenthesis
  | operator (o : Operator)
  | number (digits : String)
  | string (value : String)
  | word (name : String)
  | and
  | or
  | not
  | true
  | false
deriving DecidableEq, Repr

namespace Lexeme

def kind : Lexeme → String
  | openParenthesis => "LPAREN"
  | closeParenthesis => "RPAREN"
  | operator _ => "OP"
  | number _ => "NUMBER"
  | string _ => "STRING"
  | word _ => "IDENT"
  | and => "AND"
  | or => "OR"
  | not => "NOT"
  | true => "TRUE"
  | false => "FALSE"

-- The text of a lexeme: keywords in lower case, strings without quotes and escapes.
def value : Lexeme → String
  | openParenthesis => "("
  | closeParenthesis => ")"
  | operator o => o.text
  | number digits => digits
  | string value => value
  | word name => name
  | and => "and"
  | or => "or"
  | not => "not"
  | true => "true"
  | false => "false"

-- A word is a keyword in any case, or a name.
def ofWord (s : String) : Lexeme :=
  match s.map Char.toLower with
  | "and" => and
  | "or" => or
  | "not" => not
  | "true" => true
  | "false" => false
  | _ => word s

end Lexeme

structure Token where
  lexeme : Lexeme
  position : Nat
  width : Nat
deriving DecidableEq, Repr

namespace Token

-- What a text starts with. A lexeme comes with the number of characters it takes beyond the first.
inductive Start where
  | blank
  | lexeme (l : Lexeme) (more : Nat)
  | openString
  | unknown
deriving DecidableEq, Repr

-- The value of a string up to its closing quote and the number of characters up to and with the
-- quote, if there is one. A line break cannot be escaped.
def stringBody? (quote : Char) : List Char → Option (List Char × Nat)
  | [] => none
  | c :: rest =>
    if c = quote then some ([], 1)
    else if c = Text.backslash then
      match rest with
      | [] => none
      | d :: rest =>
        if d = '\n' then none
        else (stringBody? quote rest).map fun (value, n) => (d :: value, n + 2)
    else (stringBody? quote rest).map fun (value, n) => (c :: value, n + 1)

def isNameStart (c : Char) : Bool := c.isAlpha || c = '_'

def isNameChar (c : Char) : Bool := c.isAlphanum || c = '_'

-- What a text starts with, by its first character and the rest.
def start (c : Char) (rest : List Char) : Start :=
  if Text.isBlank c then .blank
  else if c = '(' then .lexeme .openParenthesis 0
  else if c = ')' then .lexeme .closeParenthesis 0
  else if c = '!' ∧ rest.head? = some '=' then .lexeme (.operator .ne) 1
  else if c = '<' then
    if rest.head? = some '=' then .lexeme (.operator .le) 1 else .lexeme (.operator .lt) 0
  else if c = '>' then
    if rest.head? = some '=' then .lexeme (.operator .ge) 1 else .lexeme (.operator .gt) 0
  else if c = '=' then .lexeme (.operator .eq) 0
  else if c = '~' then .lexeme (.operator .contains) 0
  else if Text.isDigit c then
    let digits := rest.takeWhile Text.isDigit
    match rest.dropWhile Text.isDigit with
    | d :: _ =>
      if Text.isWordChar d then .unknown
      else .lexeme (.number (String.ofList (c :: digits))) digits.length
    | [] => .lexeme (.number (String.ofList (c :: digits))) digits.length
  else if c = Text.singleQuote ∨ c = Text.doubleQuote then
    match stringBody? c rest with
    | some (value, n) => .lexeme (.string (String.ofList value)) n
    | none => .openString
  else if isNameStart c then
    let more := rest.takeWhile isNameChar
    .lexeme (.ofWord (String.ofList (c :: more))) more.length
  else .unknown

-- The tokens of a text. `skip` characters belong to the token before, and `position` characters lie
-- before the text.
def scan : Nat → Nat → List Char → Except Error (List Token)
  | _, _, [] => .ok []
  | skip + 1, position, _ :: rest => scan skip (position + 1) rest
  | 0, position, c :: rest =>
    match start c rest with
    | .blank => scan 0 (position + 1) rest
    | .lexeme l more => do
      let tokens ← scan more (position + 1) rest
      .ok (⟨l, position, more + 1⟩ :: tokens)
    | .openString => .error ⟨.unterminatedString, position⟩
    | .unknown => .error ⟨.unexpectedCharacter c, position⟩

end Token

def tokens (text : String) : Except Error (List Token) := Token.scan 0 0 text.toList

end LabelPlaylists.Criteria
