import LabelPlaylists.CommandLine.Usage
import LabelPlaylists.Text.Blank
import LabelPlaylists.Text.Digit
import LabelPlaylists.Text.Similar

/-!
Options and arguments of a command line. A long option may have its value behind an equals sign; short
options are flags and can be run together. Two hyphens end the options.
-/

namespace LabelPlaylists.CommandLine

structure OptionForm where
  name : String
  short : Option Char := none
  takesValue : Bool := true
deriving DecidableEq, Repr

-- The options and arguments of a command line, in the order in which they are given.
structure Given where
  options : List (String × String) := []
  arguments : List String := []
deriving DecidableEq, Repr

namespace Given

def addOption (name value : String) (g : Given) : Given :=
  { g with options := (name, value) :: g.options }

def addArgument (a : String) (g : Given) : Given := { g with arguments := a :: g.arguments }

-- The value of an option: the last one counts.
def value? (g : Given) (name : String) : Option String :=
  ((g.options.filter (·.1 = name)).getLast?).map (·.2)

def has (g : Given) (name : String) : Bool := g.options.any (·.1 = name)

def order (g : Given) : List String :=
  g.options.foldl (fun names o => if names.contains o.1 then names else names ++ [o.1]) []

end Given

-- The part before the first equals sign, and the part behind it.
def splitValue (s : String) : String × Option String :=
  let front := s.toList.takeWhile (· ≠ '=')
  match s.toList.drop front.length with
  | _ :: value => (String.ofList front, some (String.ofList value))
  | [] => (s, none)

def shortFlags (forms : List OptionForm) : List Char → Except Usage (List String)
  | [] => .ok []
  | c :: rest =>
    match forms.find? (·.short = some c) with
    | some form => (shortFlags forms rest).map (form.name :: ·)
    | none => .error (.noSuchOption (String.ofList ['-', c]) [])

def isOption (s : String) : Bool :=
  match s.toList with
  | '-' :: _ :: _ => true
  | _ => false

-- Reads options and arguments. Unless they may be mixed, the first argument ends the options.
def Given.ofWords (forms : List OptionForm) (mixed : Bool) : List String → Except Usage Given
  | [] => .ok {}
  | word :: rest =>
    if word = "--" then .ok { arguments := rest }
    else if !isOption word then
      if mixed then (ofWords forms mixed rest).map (addArgument word)
      else .ok { arguments := word :: rest }
    else
      let (name, value) := splitValue word
      match forms.find? (·.name = name) with
      | none =>
        if "--".toList.isPrefixOf word.toList then
          .error (.noSuchOption name (Text.similar (forms.map (·.name)) name))
        else do
          let flags ← shortFlags forms (word.toList.drop 1)
          let g ← ofWords forms mixed rest
          .ok (flags.foldr (fun f g => g.addOption f "") g)
      | some form =>
        if !form.takesValue then
          match value with
          | some _ => .error (.needlessValue name)
          | none => (ofWords forms mixed rest).map (addOption form.name "")
        else
          match value, rest with
          | some value, rest => (ofWords forms mixed rest).map (addOption form.name value)
          | none, [] => .error (.missingValue name)
          | none, value :: rest => (ofWords forms mixed rest).map (addOption form.name value)
termination_by words => words.length

/-! ## Numbers -/

-- The digits of a number, with single underscores between them.
def numberDigits? : List Char → Option (List Char)
  | [] => none
  | [c] => if Text.isDigit c then some [c] else none
  | c :: '_' :: rest => if Text.isDigit c then (numberDigits? rest).map (c :: ·) else none
  | c :: rest => if Text.isDigit c then (numberDigits? rest).map (c :: ·) else none

-- A whole number as users write it: blanks around it, a sign in front, at most 4300 digits.
def wholeNumber? (s : String) : Option Int := do
  let (negative, digits) := match Text.trim s.toList with
    | '-' :: rest => (true, rest)
    | '+' :: rest => (false, rest)
    | t => (false, t)
  let digits ← numberDigits? digits
  if digits.length > 4300 then none
  else
    let n : Int := Text.digitsValue digits
    some (if negative then -n else n)

def positive (option s : String) : Except Usage Int :=
  let place := "'" ++ option ++ "'"
  match wholeNumber? s with
  | none => .error (.badValue place (Text.quoted s ++ " is not a valid integer range."))
  | some n =>
    if n < 1 then .error (.badValue place (toString n ++ " is not in the range x>=1."))
    else .ok n

end LabelPlaylists.CommandLine
