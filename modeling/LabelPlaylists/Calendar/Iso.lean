import LabelPlaylists.Calendar.Day
import LabelPlaylists.Text.Utf8

/-!
Days in their ISO 8601 forms: YYYY-MM-DD, YYYYMMDD, and by week YYYY-Www-D, YYYYWwwD, where a week
without a day means its Monday. The forms are told apart by their length of 7, 8 or 10 octets;
octets after a complete compact form are not looked at.
-/

namespace LabelPlaylists

open Text

namespace Day

def digits? (count : Nat) (s : List Char) : Option (Nat × List Char) :=
  let ds := s.take count
  if ds.length = count ∧ ds.all isAsciiDigit then some (asciiValue ds, s.drop count) else none

-- The Monday of the first week of a year, which is the week of the first Thursday.
def firstMonday (year : Int) : Int :=
  let first : Day := ⟨year, 1, 1⟩
  let monday := first.number - first.weekday
  if first.weekday > 3 then monday + 7 else monday

-- A year has 53 weeks if it starts on a Thursday, or on a Wednesday and is a leap year.
def hasWeek53 (year : Int) : Bool :=
  let start := Day.weekday ⟨year, 1, 1⟩
  start = 3 || (start = 2 && isLeap year)

-- The day of a week of a year; the days of a week count from 1.
def ofWeek? (year : Int) (week day : Nat) : Option Day :=
  if (1 ≤ week ∧ week ≤ 52 ∨ week = 53 ∧ hasWeek53 year) ∧ 1 ≤ day ∧ day ≤ 7 then
    some (ofNumber (firstMonday year + (week - 1) * 7 + (day - 1)))
  else none

-- Reads a form of the given length, without asking whether the day exists.
def ofOctets? (length : Nat) (s : List Char) : Option Day := do
  let (year, rest) ← digits? 4 s
  let (separated, rest) := match rest with
    | '-' :: more => (true, more)
    | _ => (false, rest)
  match rest with
  | 'W' :: more =>
    let (week, rest) ← digits? 2 more
    let consumed := if separated then 8 else 7
    if consumed < length then
      match separated, rest with
      | true, '-' :: rest =>
        let (day, _) ← digits? 1 rest
        ofWeek? year week day
      | true, _ => none
      | false, rest =>
        let (day, _) ← digits? 1 rest
        ofWeek? year week day
    else ofWeek? year week 1
  | _ =>
    let (month, rest) ← digits? 2 rest
    match separated, rest with
    | true, '-' :: rest =>
      let (day, _) ← digits? 2 rest
      some ⟨year, month, day⟩
    | true, _ => none
    | false, rest =>
      let (day, _) ← digits? 2 rest
      some ⟨year, month, day⟩

def ofIso? (s : String) : Option Day :=
  let os := octets s
  if os.length = 7 ∨ os.length = 8 ∨ os.length = 10 then
    (ofOctets? os.length os).filter fun d => decide d.IsProper
  else none

end Day

end LabelPlaylists
