import LabelPlaylists.Number.Binary64

/-!
The shortest decimal text of a double: the fewest digits that read back as the same double, and of
those the ones nearest to it. Also doubles rounded to a number of decimal digits, a half away from
zero.
-/

namespace LabelPlaylists.Binary64

structure Fraction where
  num : Nat
  den : Nat

namespace Fraction

def scale2 (s : Nat) (e : Int) : Fraction :=
  if 0 ≤ e then ⟨s * 2 ^ e.toNat, 1⟩ else ⟨s, 2 ^ (-e).toNat⟩

def scale10 (n : Nat) (e : Int) : Fraction :=
  if 0 ≤ e then ⟨n * 10 ^ e.toNat, 1⟩ else ⟨n, 10 ^ (-e).toNat⟩

def lt (a b : Fraction) : Bool := a.num * b.den < b.num * a.den

def le (a b : Fraction) : Bool := a.num * b.den ≤ b.num * a.den

-- How far the first lies below the second.
def sub (a b : Fraction) : Fraction := ⟨a.num * b.den - b.num * a.den, a.den * b.den⟩

end Fraction

open Fraction

-- The least power of ten above a positive fraction, as an exponent.
def decimalPoint (v : Fraction) : Int :=
  if v.den ≤ v.num then Int.ofNat (Nat.repr (v.num / v.den)).length
  else
    match (List.range 330).find? fun j => v.den ≤ v.num * 10 ^ j with
    | some j => 1 - Int.ofNat j
    | none => -330

def readsBack (s : Nat) (e : Int) (x : Fraction) : Bool :=
  let below := if s = 2 ^ 52 ∧ e > leastExponent then 1 else 2
  let low := scale2 (4 * s - below) (e - 2)
  let high := scale2 (4 * s + 2) (e - 2)
  if s % 2 = 0 then low.le x && x.le high else low.lt x && x.lt high

-- The better neighbour with the given number of digits, as digits and the exponent of the last one,
-- if one reads back.
def withDigits? (s : Nat) (e : Int) (point : Int) (count : Nat) : Option (Nat × Int) :=
  let v := scale2 s e
  let unit := point - count
  let grid := scale10 1 unit
  let lower := v.num * grid.den / (v.den * grid.num)
  let down := scale10 lower unit
  let up := scale10 (lower + 1) unit
  match readsBack s e down, readsBack s e up with
  | true, true =>
    let below := v.sub down
    let above := up.sub v
    if below.lt above || (below.le above && lower % 2 = 0) then some (lower, unit)
    else some (lower + 1, unit)
  | true, false => some (lower, unit)
  | false, true => some (lower + 1, unit)
  | false, false => none

-- The shortest digits of a positive double, and the exponent of the last one.
def shortest (s : Nat) (e : Int) : Nat × Int :=
  let point := decimalPoint (scale2 s e)
  ((List.range' 1 17).findSome? (withDigits? s e point)).getD (s, e)

def dropZeros (ds : List Char) : List Char := (ds.reverse.dropWhile (· = '0')).reverse

-- How digits are laid out. Numbers from 10^-4 on are in plain notation up to a greatest power of
-- ten, and all others have an exponent of at least two digits.
structure Layout where
  plainDigits : Int
  -- A single digit before an exponent is followed by a point and a zero.
  isPointed : Bool
deriving DecidableEq, Repr

def Layout.text (l : Layout) (digits : List Char) (point : Int) : List Char :=
  let count : Int := digits.length
  if -4 < point ∧ point ≤ l.plainDigits then
    if point ≤ 0 then '0' :: '.' :: (List.replicate (-point).toNat '0' ++ digits)
    else if count ≤ point then digits ++ List.replicate (point - count).toNat '0' ++ ['.', '0']
    else digits.take point.toNat ++ '.' :: digits.drop point.toNat
  else
    let e := point - 1
    let magnitude := (Nat.repr e.natAbs).toList
    let magnitude := if magnitude.length < 2 then '0' :: magnitude else magnitude
    let mantissa := match digits with
      | [] => []
      | [d] => if l.isPointed then [d, '.', '0'] else [d]
      | d :: rest => d :: '.' :: rest
    mantissa ++ 'e' :: (if e < 0 then '-' else '+') :: magnitude

-- Sixteen digits before the point, and no point behind a single digit.
def shortestLayout : Layout := ⟨16, false⟩

def text : Binary64 → String
  | .nan => "nan"
  | .infinite negative => if negative then "-inf" else "inf"
  | .finite negative s e =>
    let sign := if negative then "-" else ""
    if s = 0 then sign ++ "0.0"
    else
      let (n, unit) := shortest s e
      let digits := (Nat.repr n).toList
      sign ++ String.ofList (shortestLayout.text (dropZeros digits) (unit + digits.length))


-- The given number of digits of a positive double, and the exponent of the last one.
def rounded (count : Nat) (s : Nat) (e : Int) : Nat × Int :=
  let v := scale2 s e
  let unit := decimalPoint v - count
  let grid := scale10 1 unit
  let n := (2 * v.num * grid.den + v.den * grid.num) / (2 * v.den * grid.num)
  if n = 10 ^ count then (10 ^ (count - 1), unit + 1) else (n, unit)

-- Fifteen digits before the point at most, and at least one behind it.
def columnLayout : Layout := ⟨15, true⟩

-- The text that a column of texts keeps of a number, with fifteen digits at most; none of what is
-- not a number.
def columnText? : Binary64 → Option String
  | .nan => none
  | .infinite negative => some (if negative then "-Inf" else "Inf")
  | .finite negative s e =>
    if s = 0 then some "0.0"
    else
      let (n, unit) := rounded 15 s e
      let digits := (Nat.repr n).toList
      some <| (if negative then "-" else "")
        ++ String.ofList (columnLayout.text (dropZeros digits) (unit + digits.length))

end LabelPlaylists.Binary64
