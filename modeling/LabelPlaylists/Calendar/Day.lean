import LabelPlaylists.Text.Digit

/-!
Days of the proleptic Gregorian calendar and their numbers: day 1 is the first of January of the
year 1, and years before it count on through zero.
-/

namespace LabelPlaylists

structure Day where
  year : Int
  month : Nat
  day : Nat
deriving DecidableEq, Repr, Inhabited

namespace Day

def isLeap (year : Int) : Bool := year % 4 = 0 && (year % 100 ≠ 0 || year % 400 = 0)

def monthLengths (leap : Bool) : List Nat :=
  [31, if leap then 29 else 28, 31, 30, 31, 30, 31, 31, 30, 31, 30, 31]

def monthLength (leap : Bool) (month : Nat) : Nat := (monthLengths leap).getD (month - 1) 0

-- The zero of a sum is the one that numerals have.
attribute [local instance (high)] Zero.ofOfNat0

def daysBeforeMonth (leap : Bool) (month : Nat) : Nat := ((monthLengths leap).take (month - 1)).sum

-- The days before a year, negative before the year 1.
def daysBeforeYear (year : Int) : Int :=
  let y := year - 1
  365 * y + y / 4 - y / 100 + y / 400

def number (d : Day) : Int :=
  daysBeforeYear d.year + daysBeforeMonth (isLeap d.year) d.month + d.day

-- The month and day of the month of a day of the year, counted from zero.
def monthAndDay (month : Nat) : List Nat → Nat → Nat × Nat
  | [], n => (month, n + 1)
  | length :: rest, n =>
    if n < length ∨ rest = [] then (month, n + 1) else monthAndDay (month + 1) rest (n - length)

-- The day with a given number: the cycles of 400, 100, 4 and 1 years are taken out in turn.
def ofNumber (n : Int) : Day :=
  let n := n - 1
  let n400 := n / 146097
  let r := n % 146097
  let n100 := r / 36524
  let r := r % 36524
  let n4 := r / 1461
  let r := r % 1461
  let n1 := r / 365
  let r := r % 365
  let year := 400 * n400 + 100 * n100 + 4 * n4 + n1 + 1
  if n1 = 4 ∨ n100 = 4 then ⟨year - 1, 12, 31⟩
  else
    let (month, day) := monthAndDay 1 (monthLengths (isLeap year)) r.toNat
    ⟨year, month, day⟩

-- A day of the years 1 to 9999 that exists.
def IsProper (d : Day) : Prop :=
  1 ≤ d.year ∧ d.year ≤ 9999 ∧ 1 ≤ d.month ∧ d.month ≤ 12 ∧ 1 ≤ d.day ∧
    d.day ≤ monthLength (isLeap d.year) d.month

instance (d : Day) : Decidable d.IsProper := by unfold IsProper; infer_instance

-- Day of the week, Monday is zero.
def weekday (d : Day) : Int := (d.number + 6) % 7

-- Written as YYYY-MM-DD.
def text (d : Day) : String :=
  Text.padded 4 d.year.toNat ++ "-" ++ Text.padded 2 d.month ++ "-" ++ Text.padded 2 d.day

end Day

end LabelPlaylists
