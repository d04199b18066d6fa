import LabelPlaylists.Number.Binary64

/-!
Sums, products and quotients of doubles: the exact result, rounded to the nearest double.
-/

namespace LabelPlaylists.Binary64

def ofScaled (negative : Bool) (n : Nat) (e : Int) : Binary64 :=
  if 0 ≤ e then ofFraction negative (n * 2 ^ e.toNat) 1 else ofFraction negative n (2 ^ (-e).toNat)

def ofInt (n : Int) : Binary64 := ofFraction (n < 0) n.natAbs 1

def zero (negative : Bool) : Binary64 := .finite negative 0 leastExponent

def neg : Binary64 → Binary64
  | .nan => .nan
  | .infinite s => .infinite !s
  | .finite s m e => .finite (!s) m e

-- A sum. Opposite numbers add up to a zero without a minus sign.
def add : Binary64 → Binary64 → Binary64
  | .nan, _ | _, .nan => .nan
  | .infinite s, .infinite t => if s = t then .infinite s else .nan
  | .infinite s, .finite .. => .infinite s
  | .finite .., .infinite t => .infinite t
  | .finite s m e, .finite t n f =>
    let low := min e f
    let units (negative : Bool) (m : Nat) (e : Int) : Int :=
      let n := Int.ofNat (m * 2 ^ (e - low).toNat)
      if negative then -n else n
    let sum := units s m e + units t n f
    if sum = 0 then zero (s && t) else ofScaled (sum < 0) sum.natAbs low

def mul : Binary64 → Binary64 → Binary64
  | .nan, _ | _, .nan => .nan
  | .infinite s, .infinite t => .infinite (s != t)
  | .infinite s, .finite t n _ => if n = 0 then .nan else .infinite (s != t)
  | .finite s m _, .infinite t => if m = 0 then .nan else .infinite (s != t)
  | .finite s m e, .finite t n f => ofScaled (s != t) (m * n) (e + f)

-- A quotient. What is not zero, divided by zero, is infinite.
def div : Binary64 → Binary64 → Binary64
  | .nan, _ | _, .nan => .nan
  | .infinite _, .infinite _ => .nan
  | .infinite s, .finite t _ _ => .infinite (s != t)
  | .finite s _ _, .infinite t => zero (s != t)
  | .finite s m e, .finite t n f =>
    if n = 0 then (if m = 0 then .nan else .infinite (s != t))
    else if 0 ≤ e - f then ofFraction (s != t) (m * 2 ^ (e - f).toNat) n
    else ofFraction (s != t) m (n * 2 ^ (f - e).toNat)

def truncated? : Binary64 → Option Int
  | .finite s m e =>
    let n := Int.ofNat (if 0 ≤ e then m * 2 ^ e.toNat else m / 2 ^ (-e).toNat)
    some (if s then -n else n)
  | _ => none

@[simp]
theorem neg_neg (x : Binary64) : x.neg.neg = x := by cases x <;> simp [neg]

theorem mul_comm (x y : Binary64) : x.mul y = y.mul x := by
  cases x <;> cases y <;> simp [mul, Bool.xor_comm, Nat.mul_comm, Int.add_comm]

end LabelPlaylists.Binary64
