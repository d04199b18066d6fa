import LabelPlaylists.Text.Digit

/-!
Tags, which say what type a node has, and the tag that a plain scalar has by its text. Numbers may hold
underscores, be written in base 2, 8 or 16, or in base 60 with colons.
-/

namespace LabelPlaylists.Yaml

inductive Tag where
  | null
  | flag
  | whole
  | real
  | octets
  | time
  | orderedPairs
  | pairs
  | set
  | text
  | sequence
  | mapping
  -- The key whose mappings are merged into its own.
  | merge
  -- The key of a default value.
  | default
  | unknown
deriving DecidableEq, Repr

namespace Tag

def start : String := "tag:yaml.org,2002:"

def ofName (name : String) : Tag :=
  let known := [("null", null), ("bool", flag), ("int", whole), ("float", real), ("binary", octets),
    ("timestamp", time), ("omap", orderedPairs), ("pairs", pairs), ("set", set), ("str", text),
    ("seq", sequence), ("map", mapping), ("merge", merge), ("value", default)]
  ((known.find? fun (short, _) => start ++ short = name).map (·.2)).getD unknown

def isScalar : Tag → Bool
  | null | flag | whole | real | octets | time | text => true
  | _ => false

-- The types of sequences whose items stand for pairs.
def holdsPairs (tag : Tag) : Bool := tag = pairs || tag = orderedPairs

/-! ## Numbers -/

def unsigned : List Char → List Char
  | '-' :: rest | '+' :: rest => rest
  | s => s

def isDigitOrLow (c : Char) : Bool := Text.isAsciiDigit c || c = '_'

def isExponent : List Char → Bool
  | [] => true
  | e :: sign :: digits =>
    (e = 'e' || e = 'E') && (sign = '+' || sign = '-') && !digits.isEmpty
      && digits.all Text.isAsciiDigit
  | _ => false

-- A digit up to 5 and a digit, or a single digit.
def isSixtieth : List Char → Bool
  | [c] => Text.isAsciiDigit c
  | [c, d] => '0' ≤ c && c ≤ '5' && Text.isAsciiDigit d
  | _ => false

def areSixtieths (s : List Char) : Bool :=
  match (String.ofList s).splitOn ":" with
  | "" :: part :: more => (part :: more).all fun p => isSixtieth p.toList
  | _ => false

def leadingDigits (s : List Char) : List Char × List Char :=
  (s.takeWhile isDigitOrLow, s.dropWhile isDigitOrLow)

def startsWithDigit (s : List Char) : Bool := s.head?.any Text.isAsciiDigit

def isDecimal (s : List Char) : Bool :=
  match unsigned s with
  | '.' :: rest => s.head? = some '.' && startsWithDigit rest && isExponent (leadingDigits rest).2
  | t =>
    startsWithDigit t &&
      match (leadingDigits t).2 with
      | '.' :: rest => isExponent (leadingDigits rest).2
      | _ => false

def isRealSixtieths (s : List Char) : Bool :=
  let t := unsigned s
  startsWithDigit t &&
    let rest := (leadingDigits t).2
    let parts := rest.takeWhile (· ≠ '.')
    areSixtieths parts &&
      match rest.drop parts.length with
      | '.' :: places => places.all isDigitOrLow
      | _ => false

def isReal (s : List Char) : Bool :=
  isDecimal s || isRealSixtieths s ||
    [".inf", ".Inf", ".INF"].contains (String.ofList (unsigned s)) ||
    [".nan", ".NaN", ".NAN"].contains (String.ofList s)

def areDigits (p : Char → Bool) (s : List Char) : Bool := !s.isEmpty && s.all fun c => p c || c = '_'

def isHexDigit (c : Char) : Bool :=
  Text.isAsciiDigit c || 'a' ≤ c && c ≤ 'f' || 'A' ≤ c && c ≤ 'F'

def isWhole (s : List Char) : Bool :=
  match unsigned s with
  | ['0'] => true
  | '0' :: 'b' :: rest => areDigits (fun c => c = '0' || c = '1') rest
  | '0' :: 'x' :: rest => areDigits isHexDigit rest
  | '0' :: rest => areDigits (fun c => '0' ≤ c && c ≤ '7') rest
  | t =>
    startsWithDigit t &&
      let rest := (leadingDigits t).2
      rest.isEmpty || areSixtieths rest

end Tag

/-! ## Times -/

structure ClockParts where
  hour : Nat
  minute : Nat
  second : Nat
  places : List Char
  -- The minutes by which the clock is ahead of UTC, if that is said.
  zone : Option Int
deriving DecidableEq, Repr

structure TimeParts where
  year : Nat
  month : Nat
  day : Nat
  clock : Option ClockParts
deriving DecidableEq, Repr

namespace TimeParts

def shortNumber? (s : List Char) : Option (Nat × List Char) :=
  let digits := (s.take 2).takeWhile Text.isAsciiDigit
  if digits.isEmpty then none else some (Text.asciiValue digits, s.drop digits.length)

def number? (count : Nat) (s : List Char) : Option (Nat × List Char) :=
  let digits := s.take count
  if digits.length = count && digits.all Text.isAsciiDigit then
    some (Text.asciiValue digits, s.drop count)
  else none

def after? (c : Char) : List Char → Option (List Char)
  | d :: rest => if c = d then some rest else none
  | [] => none

def isSpace (c : Char) : Bool := c = ' ' || c = '\t'

-- The zone at the end of a time; none may be said.
def zone? (s : List Char) : Option (Option Int) :=
  if s.isEmpty then some none
  else
    match s.dropWhile isSpace with
    | ['Z'] => some (some 0)
    | sign :: rest =>
      if sign ≠ '+' ∧ sign ≠ '-' then none
      else do
        let (hours, rest) ← shortNumber? rest
        let minutes ← match rest with
          | [] => some 0
          | _ => do
            let (minutes, rest) ← number? 2 (← after? ':' rest)
            if rest.isEmpty then some minutes else none
        let ahead : Int := Int.ofNat (hours * 60 + minutes)
        some (some (if sign = '-' then -ahead else ahead))
    | [] => none

def clock? (s : List Char) : Option ClockParts := do
  let (hour, rest) ← shortNumber? s
  let (minute, rest) ← number? 2 (← after? ':' rest)
  let (second, rest) ← number? 2 (← after? ':' rest)
  let (places, rest) := match rest with
    | '.' :: more => (more.takeWhile Text.isAsciiDigit, more.dropWhile Text.isAsciiDigit)
    | _ => ([], rest)
  some ⟨hour, minute, second, places, ← zone? rest⟩

-- A day, with a time of day behind a T or blanks if it has one.
def ofText? (s : List Char) : Option TimeParts := do
  let (year, rest) ← number? 4 s
  let (month, rest) ← shortNumber? (← after? '-' rest)
  let (day, rest) ← shortNumber? (← after? '-' rest)
  match rest with
  | [] => some ⟨year, month, day, none⟩
  | c :: more =>
    if c = 'T' ∨ c = 't' then some ⟨year, month, day, some (← clock? more)⟩
    else if isSpace c then some ⟨year, month, day, some (← clock? (more.dropWhile isSpace))⟩
    else none

end TimeParts

namespace Tag

-- Without a line feed at the end of a longer text, which the forms of values do not count.
def chomped (s : List Char) : List Char :=
  match s with
  | _ :: _ :: _ => if s.getLast? = some '\n' then s.dropLast else s
  | _ => s

def isTime (s : List Char) : Bool :=
  match TimeParts.ofText? s with
  | some t => t.clock.isSome || s.length = 10
  | none => false

def flagWords : List String :=
  ["yes", "Yes", "YES", "no", "No", "NO", "true", "True", "TRUE", "false", "False", "FALSE",
    "on", "On", "ON", "off", "Off", "OFF"]

-- The tag of a plain scalar by its text. The signs of tags, anchors and aliases stand for no type.
def ofPlain (s : String) : Tag :=
  let t := chomped s.toList
  let s := String.ofList t
  if flagWords.contains s then flag
  else if ["", "~", "null", "Null", "NULL"].contains s then null
  else if s = "<<" then merge
  else if s = "=" then default
  else if ["!", "&", "*"].contains s then unknown
  else if isReal t then real
  else if isWhole t then whole
  else if isTime t then time
  else text

end Tag

end LabelPlaylists.Yaml
