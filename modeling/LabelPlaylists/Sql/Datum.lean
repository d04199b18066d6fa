import LabelPlaylists.Number.Arithmetic
import LabelPlaylists.Number.Shortest
import LabelPlaylists.Text.Digit
import LabelPlaylists.Text.Fold
import LabelPlaylists.Text.Utf8

/-!
Values of the store and how they compare. Numbers come before texts, and a comparison with nothing
has no answer.
-/

namespace LabelPlaylists

-- A value that is given to the store: nothing, a number or a text. A flag counts as the number 1 or
-- 0, and a value of any other kind is refused.
inductive Datum where
  | null
  | flag (b : Bool)
  | integer (n : Int)
  | real (x : Binary64)
  | text (s : String)
  | foreign (kind : String)
deriving DecidableEq, Repr, Inhabited

namespace Datum

def ofOption : Option String → Datum
  | none => null
  | some s => text s

-- Whole numbers of the store have 64 bits.
def IsStorable (n : Int) : Prop := -2 ^ 63 ≤ n ∧ n < 2 ^ 63

instance (n : Int) : Decidable (IsStorable n) := by unfold IsStorable; infer_instance

def text? : Datum → Option String
  | flag b => some (if b then "1" else "0")
  | integer n => some (toString n)
  | real x => x.columnText?
  | text s => some s
  | null | foreign _ => none

def isSpace (c : Char) : Bool := (9 ≤ c.toNat && c.toNat ≤ 13) || c = ' '

-- The whole number that a numeric text writes, blanks around it aside.
def wholeOfText? (s : List Char) : Option Int :=
  let s := ((s.dropWhile isSpace).reverse.dropWhile isSpace).reverse
  let (negative, s) := match s with
    | '-' :: rest => (true, rest)
    | '+' :: rest => (false, rest)
    | _ => (false, s)
  let signed (n : Nat) : Int := if negative then -(n : Int) else n
  let whole := s.takeWhile Text.isAsciiDigit
  let s := s.dropWhile Text.isAsciiDigit
  let (places, s) := match s with
    | '.' :: rest => (rest.takeWhile Text.isAsciiDigit, rest.dropWhile Text.isAsciiDigit)
    | _ => ([], s)
  if whole.isEmpty && places.isEmpty then none
  else
    let real (power : Int) : Option Int :=
      (Binary64.ofDecimal negative (Text.asciiValue (whole ++ places))
        (power - places.length)).toInt?.filter fun n => decide (IsStorable n)
    match s with
    | [] =>
      let n := signed (Text.asciiValue whole)
      if places.isEmpty && decide (IsStorable n) then some n else real 0
    | c :: rest =>
      let (down, rest) := match rest with
        | '-' :: more => (true, more)
        | '+' :: more => (false, more)
        | _ => (false, rest)
      if (c = 'e' || c = 'E') && !rest.isEmpty && rest.all Text.isAsciiDigit then
        let n : Int := Text.asciiValue rest
        real (if down then -n else n)
      else none

def whole? : Datum → Option Int
  | flag b => some (if b then 1 else 0)
  | integer n => some n
  | real x => x.toInt?.filter fun n => decide (IsStorable n)
  | text s => wholeOfText? s.toList
  | null | foreign _ => none

def beyondAll : Int := 2 ^ 1024

-- The number that a value counts as, as a fraction over a power of two. Infinite numbers lie beyond
-- all others.
def number? : Datum → Option (Int × Nat)
  | flag b => some (if b then 1 else 0, 0)
  | integer n => some (n, 0)
  | real (.finite negative s e) =>
    let signed (n : Nat) : Int := if negative then -n else n
    some (if 0 ≤ e then (signed (s * 2 ^ e.toNat), 0) else (signed s, (-e).toNat))
  | real (.infinite negative) => some (if negative then -beyondAll else beyondAll, 0)
  | _ => none

def compareNumbers (a b : Int × Nat) : Ordering := compare (a.1 * 2 ^ b.2) (b.1 * 2 ^ a.2)

-- Texts that ignore the case of A to Z: equal if they have the same number of octets and agree up
-- to the first null.
def sameText (s t : String) : Bool :=
  let s := Text.octets s
  let t := Text.octets t
  s.length = t.length
    && Text.fold (s.takeWhile (·.toNat ≠ 0)) == Text.fold (t.takeWhile (·.toNat ≠ 0))

-- How two values compare; `folded` ignores the case of A to Z.
def compare? (folded : Bool) (a b : Datum) : Option Ordering :=
  match a, b with
  | text s, text t =>
    if folded then
      if sameText s t then some .eq else some (compare (Text.folded s) (Text.folded t))
    else some (compare s t)
  | a, b =>
    match a.number?, b.number? with
    | some m, some n => some (compareNumbers m n)
    | some _, none => if b.text?.isSome then some .lt else none
    | none, some _ => if a.text?.isSome then some .gt else none
    | none, none => none

-- Nothing compares with nothing.
theorem compare?_null_left {folded : Bool} {d : Datum} : compare? folded null d = none := by
  unfold compare?
  cases h : d.number? <;> cases d <;> simp_all [number?, text?]

theorem compare?_null_right {folded : Bool} {d : Datum} : compare? folded d null = none := by
  unfold compare?
  cases h : d.number? <;> cases d <;> simp_all [number?, text?]

end Datum

end LabelPlaylists
