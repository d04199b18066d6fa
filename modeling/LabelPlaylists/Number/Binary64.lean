import LabelPlaylists.Number.Power

/-!
Double-precision numbers by their value: a sign, a significand and a power of two. Reading a
decimal rounds it to the nearest double, a tie to the even significand.
-/

namespace LabelPlaylists

-- A double-precision number. A finite one is its significand times two to its exponent; the
-- significand has 53 bits unless the exponent is the least one.
inductive Binary64 where
  | nan
  | infinite (negative : Bool)
  | finite (negative : Bool) (significand : Nat) (exponent : Int)
deriving DecidableEq, Repr, Inhabited

namespace Binary64

def leastExponent : Int := -1074

def greatestExponent : Int := 971

-- A quotient rounded to the nearest whole number, a tie to the even one.
def roundDiv (n d : Nat) : Nat :=
  let q := n / d
  let r := n % d
  if 2 * r < d then q else if d < 2 * r then q + 1 else q + q % 2

def ofFraction (negative : Bool) (n d : Nat) : Binary64 :=
  if n = 0 then .finite negative 0 leastExponent else
  let shifted (e : Int) : Nat × Nat :=
    if 0 ≤ e then (n, d * 2 ^ e.toNat) else (n * 2 ^ (-e).toNat, d)
  let e := max (Int.ofNat n.log2 - Int.ofNat d.log2 - 53) leastExponent
  let e := if (shifted e).1 / (shifted e).2 < 2 ^ 53 then e else e + 1
  let s := roundDiv (shifted e).1 (shifted e).2
  let (s, e) := if s = 2 ^ 53 then (2 ^ 52, e + 1) else (s, e)
  if e > greatestExponent then .infinite negative else .finite negative s e

-- The double nearest to `m` times ten to the `e`. Far beyond the range of doubles the result is
-- infinite or zero without computing the power.
def ofDecimal (negative : Bool) (m : Nat) (e : Int) : Binary64 :=
  let digits : Int := (Nat.repr m).length
  if m = 0 ∨ e + digits < -400 then .finite negative 0 leastExponent
  else if e + digits > 400 then .infinite negative
  else if 0 ≤ e then ofFraction negative (m * 10 ^ e.toNat) 1
  else ofFraction negative m (10 ^ (-e).toNat)

def toInt? : Binary64 → Option Int
  | .finite negative s e =>
    let signed (n : Nat) : Int := if negative then -Int.ofNat n else Int.ofNat n
    if 0 ≤ e then some (signed (s * 2 ^ e.toNat))
    else if s % 2 ^ (-e).toNat = 0 then some (signed (s / 2 ^ (-e).toNat))
    else none
  | _ => none

def isFinite : Binary64 → Bool
  | .finite .. => true
  | _ => false

end Binary64

end LabelPlaylists
