import LabelPlaylists.Json.Basic
import LabelPlaylists.Text.Blank
import LabelPlaylists.Text.Digit

/-!
Reading typed values from JSON bodies. Every fault of a body is reported, in the order of the
fields as declared and of the elements of lists. Whole numbers are also taken from flags, from
decimals without a fraction and from texts, flags also from the numbers 0 and 1 and from words;
texts only from texts.
-/

namespace LabelPlaylists.Spotify

inductive Step where
  | field (name : String)
  | element (index : Nat)
deriving DecidableEq, Repr

inductive FaultKind where
  | missing
  | notText
  | notWhole
  | notWholeText
  | tooLong
  | fractional
  | notFinite
  | notFlag
  | notFlagWord
  | notList
  | notObject
deriving DecidableEq, Repr

def FaultKind.name : FaultKind → String
  | missing => "missing"
  | notText => "string_type"
  | notWhole => "int_type"
  | notWholeText => "int_parsing"
  | tooLong => "int_parsing_size"
  | fractional => "int_from_float"
  | notFinite => "finite_number"
  | notFlag => "bool_type"
  | notFlagWord => "bool_parsing"
  | notList => "list_type"
  | notObject => "model_type"

structure Fault where
  kind : FaultKind
  path : List Step
deriving DecidableEq, Repr

abbrev Checked (α : Type) := Except (List Fault) α

abbrev Reader (α : Type) := Json → Checked α

namespace Checked

def fault (kind : FaultKind) : Checked α := .error [⟨kind, []⟩]

def under (step : Step) : Checked α → Checked α
  | .ok a => .ok a
  | .error faults => .error (faults.map fun f => { f with path := step :: f.path })

def both : Checked α → Checked β → Checked (α × β)
  | .ok a, .ok b => .ok (a, b)
  | .ok _, .error faults => .error faults
  | .error faults, .ok _ => .error faults
  | .error faults, .error more => .error (faults ++ more)

end Checked

namespace Reader

def text : Reader String
  | .str s => .ok s
  | _ => .fault .notText

def textOrNull : Reader (Option String)
  | .null => .ok none
  | .str s => .ok (some s)
  | _ => .fault .notText

-- Blanks around a number: the white space of Unicode alone.
def isBlank (c : Char) : Bool := Text.isBlank c && !(28 ≤ c.toNat && c.toNat ≤ 31)

def trimBlanks (s : List Char) : List Char :=
  ((s.dropWhile isBlank).reverse.dropWhile isBlank).reverse

-- Without zeros in front of another digit or of a minus sign. Underscores among them go too. A
-- minus sign or a digit from 1 to 9 in front keeps the text as it is.
def dropZeros? (s : List Char) : Option (List Char) :=
  match s with
  | [] => none
  | c :: rest =>
    if c = '0' then
      let zeros := rest.takeWhile fun d => d = '0' || d = '_'
      match rest.dropWhile fun d => d = '0' || d = '_' with
      | [] => some [(zeros.getLast?).getD '0']
      | d :: more =>
        if ('1' ≤ d ∧ d ≤ '9') ∨ d = '-' then some (d :: more)
        else if d = '.' then some ((zeros.getLast?).getD '0' :: d :: more)
        else none
    else if ('1' ≤ c ∧ c ≤ '9') ∨ c = '-' then some s
    else none

-- Without a point that only zeros follow, at least one.
def dropPoint (s : List Char) : List Char :=
  match s.dropWhile (· ≠ '.') with
  | '.' :: '0' :: zeros => if zeros.all (· = '0') then s.takeWhile (· ≠ '.') else s
  | _ => s

def hasDoubleUnderscore : List Char → Bool
  | '_' :: '_' :: _ => true
  | _ :: rest => hasDoubleUnderscore rest
  | [] => false

-- Without underscores, if each stands alone and none at an end.
def dropUnderscores (s : List Char) : List Char :=
  if s.head? = some '_' ∨ s.getLast? = some '_' ∨ hasDoubleUnderscore s then s
  else s.filter (· ≠ '_')

-- Digits without a zero in front. A run of them that is too long is refused before what follows it
-- is looked at.
def wholeDigits (negative : Bool) (s : List Char) : Checked Int :=
  if s.head? = some '0' ∧ s ≠ ['0'] then .fault .notWholeText
  else if 4300 < (s.takeWhile Text.isAsciiDigit).length then .fault .tooLong
  else if s.isEmpty ∨ !s.all Text.isAsciiDigit then .fault .notWholeText
  else
    let n : Int := Text.asciiValue s
    .ok (if negative then -n else n)

-- A whole number written as text. Its sign may stand in front, or a minus sign behind zeros.
def wholeText (s : String) : Checked Int :=
  let (negative, s) := match trimBlanks s.toList with
    | '-' :: rest => (true, rest)
    | '+' :: rest => (false, if rest.head? = some '-' then [] else rest)
    | s => (false, s)
  match (dropZeros? s).map fun s => dropUnderscores (dropPoint s) with
  | none => .fault .notWholeText
  | some ('-' :: s) => if negative then .fault .notWholeText else wholeDigits true s
  | some s => wholeDigits negative s

def wholeReal (x : Binary64) : Checked Int :=
  if !x.isFinite then .fault .notFinite
  else
    match x.toInt? with
    | none => .fault .fractional
    | some n => if -2 ^ 63 < n ∧ n < 2 ^ 63 then .ok n else .fault .tooLong

def whole : Reader Int
  | .int n => .ok n
  | .bool b => .ok (if b then 1 else 0)
  | .real x => wholeReal x
  | .str s => wholeText s
  | _ => .fault .notWhole

def flagWord (s : String) : Checked Bool :=
  let s := s.map Char.toLower
  if ["0", "f", "n", "no", "off", "false"].contains s then .ok false
  else if ["1", "t", "y", "on", "yes", "true"].contains s then .ok true
  else .fault .notFlagWord

def flagNumber (n : Int) : Checked Bool :=
  if n = 0 then .ok false else if n = 1 then .ok true else .fault .notFlagWord

def flag : Reader Bool
  | .bool b => .ok b
  | .str s => flagWord s
  | .int n => if -2 ^ 63 ≤ n ∧ n < 2 ^ 63 then flagNumber n else .fault .notFlag
  | .real x =>
    match wholeReal x with
    | .ok n => flagNumber n
    | .error _ => .fault .notFlag
  | _ => .fault .notFlag

def elements (r : Reader α) : Nat → List Json → Checked (List α)
  | _, [] => .ok []
  | i, j :: rest =>
    match (r j).under (.element i) |>.both (elements r (i + 1) rest) with
    | .ok (a, others) => .ok (a :: others)
    | .error faults => .error faults

def list (r : Reader α) : Reader (List α)
  | .arr xs => elements r 0 xs
  | _ => .fault .notList

def field (name : String) (r : Reader α) : Reader α := fun j =>
  match j.get? name with
  | some v => (r v).under (.field name)
  | none => (Checked.fault .missing : Checked α).under (.field name)

def fieldOr (name : String) (default : α) (r : Reader α) : Reader α := fun j =>
  match j.get? name with
  | some v => (r v).under (.field name)
  | none => .ok default

def both (r : Reader α) (s : Reader β) : Reader (α × β) := fun j => (r j).both (s j)

def map (f : α → β) (r : Reader α) : Reader β := fun j => (r j).map f

-- Fields are read from objects only.
def object (r : Reader α) : Reader α
  | .obj fields => r (.obj fields)
  | _ => .fault .notObject

end Reader

structure Schema (α : Type) where
  name : String
  read : Reader α

end LabelPlaylists.Spotify
