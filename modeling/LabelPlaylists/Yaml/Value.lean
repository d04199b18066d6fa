import LabelPlaylists.Calendar.Moment
import LabelPlaylists.Yaml.Base64
import LabelPlaylists.Yaml.Number

/-!
The values that YAML documents hold, and those of scalars by their texts.
-/

namespace LabelPlaylists.Yaml

inductive Value where
  | null
  | flag (b : Bool)
  | whole (n : Int)
  | real (x : Binary64)
  | text (s : String)
  | day (d : Day)
  | moment (m : Moment)
  | octets (bytes : List Nat)
  | sequence (items : List Value)
  | mapping (entries : List (Value × Value))
  | set (items : List Value)
  | pairs (entries : List (Value × Value))
  -- A collection that this value lies in.
  | enclosing
deriving Repr, Inhabited

namespace Value

def number? : Value → Option Int
  | flag b => some (if b then 1 else 0)
  | whole n => some n
  | real x => x.toInt?
  | _ => none

-- The same key. Numbers are the same by their value, and flags are 1 and 0.
def sameKey : Value → Value → Bool
  | null, null => true
  | text s, text t => s == t
  | day d, day e => d == e
  | octets a, octets b => a == b
  | moment m, moment n => m.zone.isSome == n.zone.isSome && m.instant == n.instant
  | real x, real y =>
    match x.toInt?, y.toInt? with
    | some n, some m => n == m
    | none, none => x != .nan && x == y
    | _, _ => false
  | v, w =>
    match v.number?, w.number? with
    | some n, some m => n == m
    | _, _ => false

def setEntry (entries : List (Value × α)) (key : Value) (value : α) : List (Value × α) :=
  match entries with
  | [] => [(key, value)]
  | (k, v) :: rest =>
    if k.sameKey key then (k, value) :: rest else (k, v) :: setEntry rest key value

def get? (entries : List (Value × Value)) (name : String) : Option Value :=
  match entries with
  | [] => none
  | (k, v) :: rest => if k.sameKey (text name) then some v else get? rest name

theorem get?_setEntry_self (entries : List (Value × Value)) (name : String) (v : Value) :
    get? (setEntry entries (text name) v) name = some v := by
  induction entries with
  | nil => simp [setEntry, get?, sameKey]
  | cons e rest ih =>
    obtain ⟨k, w⟩ := e
    by_cases h : k.sameKey (text name) = true <;> simp [setEntry, get?, h, ih]

theorem get?_setEntry_of_ne (entries : List (Value × Value)) {name other : String} (v : Value)
    (h : name ≠ other) : get? (setEntry entries (text name) v) other = get? entries other := by
  have text_of_sameKey {k : Value} {s : String} (hk : k.sameKey (text s) = true) : k = text s := by
    cases k <;> simp_all [sameKey, number?]
  induction entries with
  | nil => simp [setEntry, get?, sameKey, h]
  | cons e rest ih =>
    obtain ⟨k, w⟩ := e
    by_cases hk : k.sameKey (text name) = true
    · have := text_of_sameKey hk
      subst this
      simp [setEntry, get?, sameKey, h]
    · by_cases ho : k.sameKey (text other) = true <;> simp [setEntry, get?, hk, ho, ih]

/-! ## Times -/

-- The microseconds of a fraction of a second: six places count.
def microsOf (places : List Char) : Nat :=
  let places := places.take 6
  Text.asciiValue places * 10 ^ (6 - places.length)

def ofTime (t : TimeParts) : Except Fault Value :=
  let d : Day := ⟨t.year, t.month, t.day⟩
  match t.clock with
  | none => if d.IsProper then .ok (day d) else .error .noSuchTime
  | some c =>
    let micros : Int :=
      Int.ofNat (c.hour * 3600 + c.minute * 60 + c.second) * Moment.microsPerSecond
        + microsOf c.places
    let zone := c.zone.map (· * 60 * Moment.microsPerSecond)
    let isZone : Bool := c.zone.all fun minutes => minutes.natAbs < 24 * 60
    if isZone ∧ d.IsProper ∧ c.hour < 24 ∧ c.minute < 60 ∧ c.second < 60 then
      .ok (moment (Moment.ofDay d micros zone))
    else .error .noSuchTime

/-! ## Scalars -/

def flagOf (s : String) : Except Fault Bool :=
  let word := s.map Char.toLower
  if ["yes", "true", "on"].contains word then .ok true
  else if ["no", "false", "off"].contains word then .ok false
  else .error .notAFlag

def octetsOf (s : String) : Except Fault (List Nat) :=
  if s.toList.any fun c => 128 ≤ c.toNat then .error .malformed
  else
    match Base64.octets? 0 0 0 s.toList with
    | some bytes => .ok bytes
    | none => .error .malformed

def ofScalar (tag : Tag) (s : String) : Except Fault Value :=
  match tag with
  | .null => .ok null
  | .flag => (flagOf s).map flag
  | .whole => (wholeOf s).map whole
  | .real => (realOf s).map real
  | .octets => (octetsOf s).map octets
  | .time =>
    match TimeParts.ofText? (Tag.chomped s.toList) with
    | some t => ofTime t
    | none => .error .notATime
  | .text => .ok (text s)
  | _ => .error .malformed

end Value

end LabelPlaylists.Yaml
