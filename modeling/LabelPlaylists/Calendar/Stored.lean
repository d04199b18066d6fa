import LabelPlaylists.Calendar.Day
import LabelPlaylists.Number.Arithmetic
import LabelPlaylists.Text.Utf8

/-!
The day of a stored date text, as the store's own date function finds it. A text is a day with an
optional time and zone, a time alone (of the first of January 2000), or a Julian day number; any
other text has no day. A zone moves the time to UTC. A day of the month up to 31 is taken in every
month, and the surplus runs over into the next month.
-/

namespace LabelPlaylists.StoredDay

open Text

def isSpace (c : Char) : Bool := (9 ≤ c.toNat && c.toNat ≤ 13) || c = ' '

def skipSpaces (s : List Char) : List Char := s.dropWhile isSpace

def field? (count low high : Nat) (s : List Char) : Option (Nat × List Char) :=
  let ds := s.take count
  if ds.length = count ∧ ds.all isAsciiDigit ∧ low ≤ asciiValue ds ∧ asciiValue ds ≤ high then
    some (asciiValue ds, s.drop count)
  else none

def after? (c : Char) : List Char → Option (List Char)
  | d :: rest => if c = d then some rest else none
  | [] => none

-- A time of day in milliseconds, and the minutes by which its zone is ahead of UTC.
structure Time where
  millis : Int
  zone : Int

-- The zone at the end of a time, in minutes; none written means UTC.
def zone? (s : List Char) : Option Int :=
  let ended (minutes : Int) (rest : List Char) : Option Int :=
    if (skipSpaces rest).isEmpty then some minutes else none
  let distance? (rest : List Char) : Option (Nat × List Char) := do
    let (hours, rest) ← field? 2 0 14 rest
    let rest ← after? ':' rest
    let (minutes, rest) ← field? 2 0 59 rest
    some (hours * 60 + minutes, rest)
  match skipSpaces s with
  | [] => some 0
  | c :: rest =>
    if c = 'Z' ∨ c = 'z' then ended 0 rest
    else if c = '+' then (distance? rest).bind fun (n, rest) => ended n rest
    else if c = '-' then (distance? rest).bind fun (n, rest) => ended (-Int.ofNat n) rest
    else none

-- The milliseconds of seconds with decimal places. They are computed in doubles, rounded at every
-- step, so that many nines come to a full second.
def fractionMillis? (seconds : Nat) (places : List Char) : Option Int :=
  let ten := Binary64.ofInt 10
  let (sum, scale) := places.foldl (fun (sum, scale) c =>
    (((sum.mul ten).add (.ofInt c.toNat)).add (.ofInt (-48)), scale.mul ten))
    (Binary64.zero false, Binary64.ofInt 1)
  (((Binary64.ofInt seconds).add (sum.div scale)).mul (.ofInt 1000)).truncated?

-- HH:MM, HH:MM:SS or HH:MM:SS.SSS with an optional zone.
def time? (s : List Char) : Option Time := do
  let (hours, rest) ← field? 2 0 24 s
  let rest ← after? ':' rest
  let (minutes, rest) ← field? 2 0 59 rest
  let (millis, rest) ← match after? ':' rest with
    | none => some (0, rest)
    | some rest => do
      let (seconds, rest) ← field? 2 0 59 rest
      match rest with
      | '.' :: more =>
        let places := more.takeWhile isAsciiDigit
        if places.isEmpty then some (Int.ofNat seconds * 1000, rest)
        else some (← fractionMillis? seconds places, more.dropWhile isAsciiDigit)
      | _ => some (Int.ofNat seconds * 1000, rest)
  let zone ← zone? rest
  some ⟨Int.ofNat (hours * 3600000 + minutes * 60000) + millis, zone⟩

def millisPerDay : Int := 86400000

-- The Julian time of the last millisecond of the year 9999.
def lastMillis : Int := 464269060799999

-- Milliseconds from the start of the Julian day count to midnight of a day.
def julianMillis (d : Day) : Int :=
  let (y, m) : Int × Int := if d.month ≤ 2 then (d.year - 1, d.month + 12) else (d.year, d.month)
  let a := y.tdiv 100
  let b := 2 - a + a.tdiv 4
  let x₁ := (36525 * (y + 4716)).tdiv 100
  let x₂ := (306001 * (m + 1)).tdiv 10000
  (2 * (x₁ + x₂ + d.day + b) - 3049) * (millisPerDay / 2)

def ofJulianMillis (t : Int) : Day :=
  let z := (t + 43200000) / millisPerDay
  let a := (4 * z - 7468865).tdiv 146097
  let a := z + 1 + a - a.tdiv 4
  let b := a + 1524
  let c := (100 * b - 12210).tdiv 36525
  let d := (36525 * c).tdiv 100
  let e := (10000 * (b - d)).tdiv 306001
  let x := (306001 * e).tdiv 10000
  let month := if e < 14 then e - 1 else e - 13
  let year := if month > 2 then c - 4716 else c - 4715
  ⟨year, month.toNat, (b - d - x).toNat⟩

-- A day, and the time written behind it after blanks or the letter T.
def dayAndTime? (s : List Char) : Option (Day × Option Time) := do
  let (negative, s) := match s with
    | '-' :: rest => (true, rest)
    | _ => (false, s)
  let (year, rest) ← field? 4 0 9999 s
  let rest ← after? '-' rest
  let (month, rest) ← field? 2 1 12 rest
  let rest ← after? '-' rest
  let (day, rest) ← field? 2 1 31 rest
  let rest := rest.dropWhile fun c => isSpace c || c = 'T'
  let d : Day := ⟨if negative then -Int.ofNat year else year, month, day⟩
  match time? rest with
  | some t => some (d, some t)
  | none => if rest.isEmpty then some (d, none) else none

-- Julian milliseconds from a number of days, which must lie within the years up to 9999.
def ofDays? (days : Binary64) : Option Int := do
  let halves ← (days.mul (.ofInt 2)).truncated?
  let isNegative : Bool := match days with
    | .finite negative s _ => negative && s ≠ 0
    | _ => true
  if isNegative ∨ 10746969 ≤ halves then none
  else ((days.mul (.ofInt 86400000)).add (.ofFraction false 1 2)).truncated?

def number? (s : List Char) : Option Int := do
  let s := skipSpaces s
  let (negative, s) := match s with
    | '-' :: rest => (true, rest)
    | '+' :: rest => (false, rest)
    | _ => (false, s)
  let whole := s.takeWhile isAsciiDigit
  let s := s.dropWhile isAsciiDigit
  let (places, s) := match s with
    | '.' :: rest => (rest.takeWhile isAsciiDigit, rest.dropWhile isAsciiDigit)
    | _ => ([], s)
  let (power, s) ← match s with
    | c :: rest =>
      if c = 'e' ∨ c = 'E' then
        let (down, rest) := match rest with
          | '-' :: more => (true, more)
          | '+' :: more => (false, more)
          | _ => (false, rest)
        let ds := rest.takeWhile isAsciiDigit
        if ds.isEmpty then none
        else
          let n : Int := asciiValue ds
          some (if down then -n else n, rest.dropWhile isAsciiDigit)
      else some (0, s)
    | [] => some (0, s)
  if whole.isEmpty ∧ places.isEmpty ∨ !(skipSpaces s).isEmpty then none
  else ofDays? (.ofDecimal negative (asciiValue (whole ++ places)) (power - places.length))

-- The Julian time of a stored date text, and the day as written if it can be kept.
def read? (s : List Char) : Option (Int × Option Day) :=
  match dayAndTime? s with
  | some (d, none) => some (julianMillis d, some d)
  | some (d, some t) =>
    if t.zone = 0 then some (julianMillis d + t.millis, some d)
    else some (julianMillis d + t.millis - t.zone * 60000, none)
  | none =>
    match time? s with
    | some t =>
      let d : Day := ⟨2000, 1, 1⟩
      some (julianMillis d + t.millis - t.zone * 60000, none)
    | none => (number? s).map fun t => (t, none)

-- A day as the store writes it, with a minus sign before the year 0.
def dayText (d : Day) : String :=
  (if d.year < 0 then "-" else "") ++ padded 4 d.year.natAbs ++ "-" ++ padded 2 d.month ++ "-"
    ++ padded 2 d.day

def ofText? (s : String) : Option String :=
  match read? (octetsToNull s) with
  | none => none
  | some (t, written) =>
    if t < 0 ∨ lastMillis < t then none
    else
      match written with
      | some d => some (dayText d)
      | none => some (dayText (ofJulianMillis t))

end LabelPlaylists.StoredDay
