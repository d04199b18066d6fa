import LabelPlaylists.Number.Arithmetic
import LabelPlaylists.Text.Blank
import LabelPlaylists.Yaml.Fault
import LabelPlaylists.Yaml.Tag

/-!
Numbers from their texts. Underscores between digits count nothing; a leading zero means base 8, 0b and
0x mean base 2 and 16, and colons separate the digits of base 60.
-/

namespace LabelPlaylists.Yaml

def mostDigits : Nat := 4300

def digitIn? (base : Nat) (c : Char) : Option Nat :=
  let n := c.toNat
  let letter : Option Nat :=
    if 'a' ≤ c ∧ c ≤ 'f' then some (n - 87) else if 'A' ≤ c ∧ c ≤ 'F' then some (n - 55) else none
  ((Text.digitValue? c).orElse fun _ => letter).filter (· < base)

def signed (s : List Char) : Bool × List Char :=
  match s with
  | '-' :: rest => (true, rest)
  | '+' :: rest => (false, rest)
  | _ => (false, s)

def negatedIf (negative : Bool) (n : Int) : Int := if negative then -n else n

-- The letter that names a base behind a zero.
def baseLetter? : Nat → Option Char
  | 2 => some 'b'
  | 8 => some 'o'
  | 16 => some 'x'
  | _ => none

-- Without a zero and the letter of the base, if they are there.
def dropBase (base : Nat) (s : List Char) : List Char :=
  match s with
  | '0' :: c :: rest => if baseLetter? base = some c.toLower then rest else s
  | _ => s

-- A whole number in a base, with blanks around it and a sign and a name of the base of its own.
def wholeIn (base : Nat) (s : List Char) : Except Fault Int :=
  let (negative, t) := signed (Text.trim s)
  let digits := dropBase base t
  if digits.isEmpty || base = 10 && digits.length > mostDigits then .error .notANumber
  else
    match digits.foldlM (fun n c => (digitIn? base c).map (base * n + ·)) 0 with
    | some n => .ok (negatedIf negative (Int.ofNat n))
    | none => .error .notANumber

def parts (s : List Char) : List (List Char) := ((String.ofList s).splitOn ":").map String.toList

def number (s : String) : Except Fault (Bool × List Char) :=
  match s.toList.filter (· ≠ '_') with
  | [] => .error .emptyNumber
  | t => .ok (signed t)

def wholeOf (s : String) : Except Fault Int := do
  let (negative, t) ← number s
  let n : Int ← match t with
    | [] => .error .emptyNumber
    | ['0'] => .ok 0
    | '0' :: 'b' :: rest => wholeIn 2 rest
    | '0' :: 'x' :: rest => wholeIn 16 rest
    | '0' :: _ => wholeIn 8 t
    | _ =>
      if t.contains ':' then
        (parts t).foldlM (fun n part => (wholeIn 10 part).map (60 * n + ·)) 0
      else wholeIn 10 t
  .ok (negatedIf negative n)

-- The digits of a decimal with their exponent: digits, a point somewhere among or around them, and
-- an exponent.
def decimal? (s : List Char) : Option (Nat × Int) := do
  let isDigit (c : Char) : Bool := Text.isDigit c
  let front := s.takeWhile isDigit
  let rest := s.dropWhile isDigit
  let (places, rest) := match rest with
    | '.' :: more => (more.takeWhile isDigit, more.dropWhile isDigit)
    | _ => ([], rest)
  if front.isEmpty ∧ places.isEmpty then none
  else
    let power : Int ← match rest with
      | [] => some 0
      | e :: more =>
        if e ≠ 'e' ∧ e ≠ 'E' then none
        else
          let (down, digits) := signed more
          if digits.isEmpty ∨ !digits.all isDigit then none
          else some (negatedIf down (Int.ofNat (Text.digitsValue digits)))
    some (Text.digitsValue (front ++ places), power - places.length)

-- A number with a point from its text in lower case, without the sign in front.
def unsignedReal (negative : Bool) (s : List Char) : Except Fault Binary64 :=
  let (inner, t) := signed (Text.trim s)
  let negative := negative != inner
  if ["inf", "infinity"].contains (String.ofList t) then .ok (.infinite negative)
  else if String.ofList t = "nan" then .ok .nan
  else
    match decimal? t with
    | some (m, e) => .ok (.ofDecimal negative m e)
    | none => .error .notANumber

-- Adds up the digits of base 60 from the last one on, rounding at every step. The place values are
-- exact until a digit is multiplied by one, for which it must not be too large.
def sixtieths (sum : Binary64) (placeValue : Nat) : List Binary64 → Except Fault Binary64
  | [] => .ok sum
  | digit :: rest =>
    match Binary64.ofInt placeValue with
    | .infinite _ => .error .numberTooLarge
    | p => sixtieths (sum.add (digit.mul p)) (placeValue * 60) rest

def realOf (s : String) : Except Fault Binary64 := do
  let (negative, t) ← number (s.map Char.toLower)
  if String.ofList t = ".inf" then .ok (.infinite negative)
  else if String.ofList t = ".nan" then .ok .nan
  else if t.contains ':' then
    let digits ← (parts t).mapM (unsignedReal false)
    let sum ← sixtieths (.zero false) 1 digits.reverse
    .ok (if negative then sum.neg else sum)
  else unsignedReal negative t

end LabelPlaylists.Yaml
