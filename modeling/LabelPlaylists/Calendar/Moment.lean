import LabelPlaylists.Calendar.Iso
import LabelPlaylists.Number.Power

/-!
Points in time as a wall clock shows them, to the microsecond, with or without the distance of its
zone from UTC. Two moments compare only if both have a zone or neither has.
-/

namespace LabelPlaylists

open Text

structure Moment where
  -- Microseconds since the start of the year 1, as the clock shows them.
  local' : Int
  -- Microseconds by which the clock is ahead of UTC, if its zone is known.
  zone : Option Int
deriving DecidableEq, Repr, Inhabited

namespace Moment

def microsPerSecond : Int := 1000000

def microsPerDay : Int := 86400 * microsPerSecond

def span : Int := 3652059 * microsPerDay

-- Within the years 1 to 9999.
def InRange (m : Moment) : Prop := 0 ≤ m.local' ∧ m.local' < span

instance (m : Moment) : Decidable m.InRange := by unfold InRange; infer_instance

def ofDay (d : Day) (micros : Int) (zone : Option Int) : Moment :=
  ⟨(d.number - 1) * microsPerDay + micros, zone⟩

-- The moment so many microseconds after the start of 1970, in UTC.
def ofUnix (micros : Int) : Moment := ofDay ⟨1970, 1, 1⟩ micros (some 0)

-- Without a zone, and without a fraction of a second.
def toSecond (m : Moment) : Moment :=
  ⟨m.local' - m.local' % microsPerSecond, none⟩

def day (m : Moment) : Day := Day.ofNumber (m.local' / microsPerDay + 1)

-- The same point in time for clocks of every zone.
def instant (m : Moment) : Int := m.local' - m.zone.getD 0

-- A clock without a zone shows UTC.
def orUtc (m : Moment) : Moment := { m with zone := some (m.zone.getD 0) }

def inUtc (m : Moment) : Moment := ⟨m.instant, some 0⟩

def addSeconds? (m : Moment) (seconds : Int) : Option Moment :=
  let later := { m with local' := m.local' + seconds * microsPerSecond }
  if later.InRange then some later else none

-- Strictly later, if the two can be compared.
def isAfter? (m n : Moment) : Option Bool :=
  match m.zone, n.zone with
  | none, none | some _, some _ => some (n.instant < m.instant)
  | _, _ => none

-- Hours, minutes, seconds and microseconds of a time of day; seconds and microseconds are left out
-- as asked.
def clockText (withSeconds : Bool) (micros : Nat) : String :=
  let seconds := micros / 1000000
  let rest := micros % 1000000
  padded 2 (seconds / 3600) ++ ":" ++ padded 2 (seconds / 60 % 60)
    ++ (if withSeconds ∨ seconds % 60 ≠ 0 ∨ rest ≠ 0 then ":" ++ padded 2 (seconds % 60) else "")
    ++ (if rest ≠ 0 then "." ++ padded 6 rest else "")

def zoneText : Option Int → String
  | none => ""
  | some z => (if z < 0 then "-" else "+") ++ clockText false z.natAbs

-- Day and time of day with the given separator, microseconds only when there are any.
def textWith (separator : String) (m : Moment) : String :=
  m.day.text ++ separator ++ clockText true (m.local' % microsPerDay).toNat ++ zoneText m.zone

def text (m : Moment) : String := m.textWith "T"

/-! ## Reading -/

structure Clock where
  hour : Nat
  minute : Nat
  second : Nat
  micro : Nat
  complete : Bool

-- The fraction of a second: at most six digits count, further ones are passed over.
def fraction? (atEnd : Bool) (s : List Char) : Option (Nat × Bool) := do
  let count := min 6 s.length
  let (n, rest) ← Day.digits? count s
  let complete := match rest.dropWhile isAsciiDigit with
    | [] => atEnd
    | c :: _ => c.toNat = 0
  some (n * 10 ^ (6 - count), complete)

-- Hours, minutes and seconds, either all separated by colons or none. `read` holds the fields
-- already read, `left` says how many may follow, and `atEnd` whether the text ends where the
-- characters do.
def fields? (atEnd : Bool) (separated : Option Bool) (read : List Nat) :
    Nat → List Char → Option (List Nat × Nat × Bool)
  | 0, s => (fraction? atEnd s).map fun (micro, complete) => (read, micro, complete)
  | left + 1, s => do
    let (n, rest) ← Day.digits? 2 s
    let read := read ++ [n]
    match rest with
    | [] => some (read, 0, atEnd)
    | [c] => some (read, 0, c.toNat = 0)
    | c :: more =>
      let colons := separated.getD (c = ':')
      if colons ∧ c = ':' then fields? atEnd colons read left more
      else if c = '.' ∨ c = ',' then
        (fraction? atEnd more).map fun (micro, complete) => (read, micro, complete)
      else if colons then none
      else fields? atEnd colons read left rest

def clock? (atEnd : Bool) (s : List Char) : Option Clock :=
  (fields? atEnd none [] 3 s).map fun (read, micro, complete) =>
    ⟨read.getD 0 0, read.getD 1 0, read.getD 2 0, micro, complete⟩

def Clock.seconds (c : Clock) : Nat := c.hour * 3600 + c.minute * 60 + c.second

-- The distance from UTC behind its sign; whole seconds of zero mean UTC itself.
def zone? (negative : Bool) (s : List Char) : Option Int := do
  let c ← clock? true s
  if !c.complete then none
  else
    let micros : Int :=
      if c.seconds = 0 then 0 else Int.ofNat c.seconds * microsPerSecond + Int.ofNat c.micro
    if micros < microsPerDay then some (if negative then -micros else micros) else none

-- A time of day with an optional zone, as microseconds of the day and the zone. A Z stands at the
-- end, or before a null.
def time? (s : List Char) : Option (Int × Option Int) := do
  let isSign (c : Char) : Bool := c = '+' || c = '-' || c = 'Z'
  let front := s.takeWhile (!isSign ·)
  let rest := s.dropWhile (!isSign ·)
  let c ← clock? rest.isEmpty front
  let zone ← match rest with
    | [] => if c.complete then some none else none
    | 'Z' :: more => if more.head?.all (·.toNat = 0) then some (some 0) else none
    | sign :: more => (zone? (sign = '-') more).map some
  if c.hour < 24 ∧ c.minute < 60 ∧ c.second < 60 then
    some (Int.ofNat c.seconds * microsPerSecond + Int.ofNat c.micro, zone)
  else none

-- Where the day ends and the separator before the time stands. A week date followed by a hyphen and
-- two digits or more is a week and a time.
def separatorAt? (s : List Char) : Option Nat :=
  let at' (i : Nat) : Char := s.getD i '\x00'
  if s.length < 7 then none
  else if s.length = 7 then some 7
  else if at' 4 = '-' then
    if at' 5 = 'W' then
      if s.length > 8 ∧ at' 8 = '-' then
        if s.length = 9 then none
        else if s.length > 10 ∧ isAsciiDigit (at' 10) then some 8
        else some 10
      else some 8
    else some 10
  else if at' 4 = 'W' then
    let stop := 7 + ((s.drop 7).takeWhile isAsciiDigit).length
    if stop < 9 then some stop else if stop % 2 = 0 then some 7 else some 8
  else some 8

-- How many octets the separator takes, by its first one.
def separatorWidth (c : Char) : Nat :=
  if c.toNat < 0x80 then 1
  else if c.toNat / 16 = 0xE then 3
  else if c.toNat / 16 = 0xF then 4
  else 2

-- The moment that a text writes in ISO 8601: a day alone is its midnight, and any one character may
-- stand between the day and the time.
def ofIso? (s : String) : Option Moment := do
  let os := octets s
  let split ← separatorAt? os
  let d ← (Day.ofOctets? split os).filter fun d => decide d.IsProper
  match os.drop split with
  | [] => some (ofDay d 0 none)
  | c :: rest =>
    let (micros, zone) ← time? (rest.drop (separatorWidth c - 1))
    some (ofDay d micros zone)

end Moment

end LabelPlaylists
