import LabelPlaylists.Json.Basic
import LabelPlaylists.Text.Digit

/-!
Reading JSON text. A number without fraction and exponent is a whole number; NaN, Infinity and
-Infinity are numbers; a control character inside a string is refused, and so is a whole number of
more than 4300 digits.
-/

namespace LabelPlaylists.Json

open Text

def isBlank (c : Char) : Bool := c = ' ' || c = '\t' || c = '\n' || c = '\r'

def skipBlanks (s : List Char) : List Char := s.dropWhile isBlank

def after? (word : String) (s : List Char) : Option (List Char) :=
  if word.toList.isPrefixOf s then some (s.drop word.length) else none

def hexValue? (c : Char) : Option Nat :=
  if '0' ≤ c ∧ c ≤ '9' then some (c.toNat - 48)
  else if 'a' ≤ c ∧ c ≤ 'f' then some (c.toNat - 87)
  else if 'A' ≤ c ∧ c ≤ 'F' then some (c.toNat - 55)
  else none

def unit? : List Char → Option (Nat × List Char)
  | a :: b :: c :: d :: rest => do
    let a ← hexValue? a
    let b ← hexValue? b
    let c ← hexValue? c
    let d ← hexValue? d
    some (((a * 16 + b) * 16 + c) * 16 + d, rest)
  | _ => none

-- A character from its escape, behind the letter u: one unit, or a pair of surrogates.
def escapedUnit? (s : List Char) : Option (Char × List Char) := do
  let (high, rest) ← unit? s
  if 0xD800 ≤ high ∧ high < 0xDC00 then
    match rest with
    | '\x5c' :: 'u' :: more =>
      match unit? more with
      | some (low, more) =>
        if 0xDC00 ≤ low ∧ low < 0xE000 then
          some (Char.ofNat (0x10000 + (high - 0xD800) * 1024 + (low - 0xDC00)), more)
        else some (Char.ofNat 0xFFFD, rest)
      | none => some (Char.ofNat 0xFFFD, rest)
    | _ => some (Char.ofNat 0xFFFD, rest)
  else if 0xDC00 ≤ high ∧ high < 0xE000 then some (Char.ofNat 0xFFFD, rest)
  else some (Char.ofNat high, rest)

-- A string up to its closing quote. The first argument bounds the number of characters.
def stringRest? : Nat → List Char → List Char → Option (String × List Char)
  | 0, _, _ => none
  | n + 1, done, s =>
    match s with
    | [] => none
    | '\x22' :: rest => some (String.ofList done.reverse, rest)
    | '\x5c' :: 'u' :: rest =>
      match escapedUnit? rest with
      | some (c, rest) => stringRest? n (c :: done) rest
      | none => none
    | '\x5c' :: c :: rest =>
      let meant? : Option Char :=
        if c = '\x22' ∨ c = '\x5c' ∨ c = '/' then some c
        else if c = 'n' then some '\n'
        else if c = 't' then some '\t'
        else if c = 'r' then some '\r'
        else if c = 'b' then some '\x08'
        else if c = 'f' then some '\x0c'
        else none
      match meant? with
      | some d => stringRest? n (d :: done) rest
      | none => none
    | c :: rest => if c.toNat < 32 then none else stringRest? n (c :: done) rest

def digitRun (s : List Char) : List Char × List Char :=
  (s.takeWhile isAsciiDigit, s.dropWhile isAsciiDigit)

-- A fraction behind its point, if at least one digit stands there.
def fraction (s : List Char) : List Char × List Char :=
  match s with
  | '.' :: rest =>
    match digitRun rest with
    | ([], _) => ([], s)
    | found => found
  | _ => ([], s)

-- An exponent behind its letter, if at least one digit stands there.
def exponent? (s : List Char) : Option Int × List Char :=
  match s with
  | c :: rest =>
    if c = 'e' ∨ c = 'E' then
      let (negative, rest) := match rest with
        | '+' :: more => (false, more)
        | '-' :: more => (true, more)
        | _ => (false, rest)
      match digitRun rest with
      | ([], _) => (none, s)
      | (ds, more) =>
        let n : Int := asciiValue ds
        (some (if negative then -n else n), more)
    else (none, s)
  | [] => (none, s)

def number? (negative : Bool) (s : List Char) : Option (Json × List Char) :=
  let (whole, rest) := match s with
    | '0' :: rest => (['0'], rest)
    | _ => digitRun s
  if whole.isEmpty then none
  else
    let (places, rest) := fraction rest
    let (power?, rest) := exponent? rest
    if places.isEmpty && power?.isNone then
      if whole.length > 4300 then none
      else
        let n : Int := asciiValue whole
        some (.int (if negative then -n else n), rest)
    else
      let power := power?.getD 0 - places.length
      some (.real (.ofDecimal negative (asciiValue (whole ++ places)) power), rest)

def word? (s : List Char) : Option (Json × List Char) :=
  [("null", .null), ("true", .bool true), ("false", .bool false), ("NaN", .real .nan),
    ("Infinity", .real (.infinite false)), ("-Infinity", .real (.infinite true))].findSome?
    fun (word, j) => (after? word s).map fun rest => (j, rest)

mutual

-- A value at the start of the input. The first argument bounds the work and is never short when it
-- exceeds twice the length of the input.
def value? : Nat → List Char → Option (Json × List Char)
  | 0, _ => none
  | n + 1, s =>
    match word? s with
    | some found => some found
    | none =>
      match s with
      | '\x22' :: rest => (stringRest? (rest.length + 1) [] rest).map fun (t, r) => (.str t, r)
      | '[' :: rest =>
        match skipBlanks rest with
        | ']' :: more => some (.arr [], more)
        | items => elements? n [] items
      | '\x7b' :: rest =>
        match skipBlanks rest with
        | '\x7d' :: more => some (.obj [], more)
        | items => fields? n [] items
      | '-' :: rest => number? true rest
      | _ => number? false s

-- The elements of an array up to its closing bracket; those read before are in reverse.
def elements? : Nat → List Json → List Char → Option (Json × List Char)
  | 0, _, _ => none
  | n + 1, done, s =>
    match value? n s with
    | none => none
    | some (j, rest) =>
      match skipBlanks rest with
      | ',' :: more => elements? n (j :: done) (skipBlanks more)
      | ']' :: more => some (.arr (j :: done).reverse, more)
      | _ => none

def fields? : Nat → List (String × Json) → List Char → Option (Json × List Char)
  | 0, _, _ => none
  | n + 1, done, s =>
    match s with
    | '\x22' :: rest =>
      match stringRest? (rest.length + 1) [] rest with
      | none => none
      | some (name, rest) =>
        match skipBlanks rest with
        | ':' :: more =>
          match value? n (skipBlanks more) with
          | none => none
          | some (j, rest) =>
            match skipBlanks rest with
            | ',' :: more => fields? n (setField done name j) (skipBlanks more)
            | '\x7d' :: more => some (.obj (setField done name j), more)
            | _ => none
        | _ => none
    | _ => none

end

def read? (s : String) : Option Json :=
  let cs := skipBlanks s.toList
  match value? (2 * cs.length + 2) cs with
  | some (j, rest) => if (skipBlanks rest).isEmpty then some j else none
  | none => none

end LabelPlaylists.Json
