import LabelPlaylists.Calendar.Stored
import LabelPlaylists.Sql.Datum
import LabelPlaylists.Sql.Relation

/-!
Tests on a track as the store runs them: a small part of SQL over the track `t` and its album `al`,
with subqueries over the artists, the genres and the static labels of the track. A question mark
stands for a parameter; parameters are given in the order in which the question marks are written.
-/

namespace LabelPlaylists.Sql

-- A value of the track, of its album, or of the current row of a subquery.
inductive Column where
  | name
  | album
  | artist
  | genre
  | label
  | explicit
  | added
  | released
deriving DecidableEq, Repr

def Column.text : Column → String
  | name => "t.name"
  | album => "al.name"
  | artist => "ar.name"
  | genre => "g.value"
  | label => "lb.name"
  | explicit => "t.explicit"
  | added => "t.date_added"
  | released => "al.date_released"

inductive Rows where
  | artists
  | genres
  | labels
deriving DecidableEq, Repr

namespace Rows

def text : Rows → String
  | artists =>
    "SELECT 1 FROM track_artists ta JOIN artists ar ON ar.id = ta.artist_id WHERE ta.track_id = t.id AND "
  | genres =>
    "SELECT 1 FROM track_artists ta JOIN artists ar ON ar.id = ta.artist_id, json_each(ar.genres) g WHERE ta.track_id = t.id AND "
  | labels =>
    "SELECT 1 FROM track_labels tl JOIN labels lb ON lb.id = tl.label_id WHERE tl.track_id = t.id AND lb.smart_criteria IS NULL AND "

def column : Rows → Column
  | artists => .artist
  | genres => .genre
  | labels => .label

end Rows

inductive Value where
  | column (c : Column)
  | parameter
  | one
  | day (v : Value)
  | lower (v : Value)
  -- The number at the start of the first four characters.
  | year (v : Value)
deriving Repr

inductive Test where
  | compare (r : Relation) (left right : Value)
  -- A comparison that ignores the case of A to Z.
  | compareFolded (r : Relation) (left right : Value)
  | holds (whole part : Value)
  | exists' (rows : Rows) (t : Test)
  | notExists (rows : Rows) (t : Test)
  | not (t : Test)
  | and (ts : List Test)
  | or (ts : List Test)
deriving Repr

/-! ## Text -/

def Value.text : Value → String
  | column c => c.text
  | parameter => "?"
  | one => "1"
  | day v => "date(" ++ v.text ++ ")"
  | lower v => "lower(" ++ v.text ++ ")"
  | year v => "CAST(substr(" ++ v.text ++ ", 1, 4) AS INTEGER)"

namespace Test

mutual

def text : Test → String
  | .compare r a b => a.text ++ " " ++ r.sql ++ " " ++ b.text
  | .compareFolded r a b => a.text ++ " " ++ r.sql ++ " " ++ b.text ++ " COLLATE NOCASE"
  | .holds whole part => "instr(" ++ whole.text ++ ", " ++ part.text ++ ") > 0"
  | .exists' rows t => "EXISTS (" ++ rows.text ++ text t ++ ")"
  | .notExists rows t => "NOT EXISTS (" ++ rows.text ++ text t ++ ")"
  | .not t => "NOT (" ++ text t ++ ")"
  | .and ts => " AND ".intercalate (texts ts)
  | .or ts => " OR ".intercalate (texts ts)

-- Operands stand between parentheses.
def texts : List Test → List String
  | [] => []
  | t :: rest => ("(" ++ text t ++ ")") :: texts rest

end

end Test

/-! ## Parameters -/

def Value.arity : Value → Nat
  | column _ => 0
  | parameter => 1
  | one => 0
  | day v => v.arity
  | lower v => v.arity
  | year v => v.arity

namespace Test

mutual

def arity : Test → Nat
  | .compare _ a b => a.arity + b.arity
  | .compareFolded _ a b => a.arity + b.arity
  | .holds whole part => whole.arity + part.arity
  | .exists' _ t => arity t
  | .notExists _ t => arity t
  | .not t => arity t
  | .and ts => arities ts
  | .or ts => arities ts

def arities : List Test → Nat
  | [] => 0
  | t :: rest => arity t + arities rest

end

end Test

/-! ## Meaning -/

-- What the columns hold and what the subqueries go through, for one track.
structure Scope where
  value : Column → Datum
  rows : Rows → List Datum

namespace Scope

def at' (s : Scope) (rows : Rows) (d : Datum) : Scope :=
  { s with value := fun c => if c = rows.column then d else s.value c }

end Scope

-- The whole number at the start of a text, zero if there is none.
def leadingNumber (s : List Char) : Int :=
  let s := s.dropWhile Datum.isSpace
  let (negative, s) := match s with
    | '-' :: rest => (true, rest)
    | '+' :: rest => (false, rest)
    | _ => (false, s)
  let n : Int := Text.asciiValue (s.takeWhile Text.isAsciiDigit)
  if negative then -n else n

def yearOf (d : Datum) : Datum :=
  match d.text? with
  | none => .null
  | some s => .integer (leadingNumber ((s.toList.takeWhile (·.toNat ≠ 0)).take 4))

def dayOf (d : Datum) : Datum := .ofOption (d.text?.bind StoredDay.ofText?)

def lowered (d : Datum) : Datum := .ofOption (d.text?.map Text.folded)

def Value.eval (s : Scope) (ps : List Datum) : Value → Datum
  | column c => s.value c
  | parameter => ps.headD .null
  | one => .integer 1
  | day v => dayOf (v.eval s ps)
  | lower v => lowered (v.eval s ps)
  | year v => yearOf (v.eval s ps)

def containment (whole part : Datum) : Truth :=
  match whole.text?, part.text? with
  | some w, some p => some (Text.occursIn p.toList w.toList)
  | _, _ => none

namespace Test

mutual

def eval (s : Scope) (ps : List Datum) : Test → Truth
  | .compare r a b =>
    (Datum.compare? false (a.eval s ps) (b.eval s (ps.drop a.arity))).map r.holds
  | .compareFolded r a b =>
    (Datum.compare? true (a.eval s ps) (b.eval s (ps.drop a.arity))).map r.holds
  | .holds whole part => containment (whole.eval s ps) (part.eval s (ps.drop whole.arity))
  | .exists' rows t =>
    some ((s.rows rows).any fun d => eval (s.at' rows d) ps t == some true)
  | .notExists rows t =>
    some (!(s.rows rows).any fun d => eval (s.at' rows d) ps t == some true)
  | .not t => (eval s ps t).not
  | .and ts => evalAll s ps ts
  | .or ts => evalAny s ps ts

def evalAll (s : Scope) (ps : List Datum) : List Test → Truth
  | [] => some true
  | t :: rest => (eval s ps t).and (evalAll s (ps.drop (arity t)) rest)

def evalAny (s : Scope) (ps : List Datum) : List Test → Truth
  | [] => some false
  | t :: rest => (eval s ps t).or (evalAny s (ps.drop (arity t)) rest)

end

end Test

/-! ## Limits -/

def Value.height : Value → Nat
  | column _ => 2
  | parameter => 1
  | one => 1
  | day v => v.height + 1
  | lower v => v.height + 1
  | year v => v.height + 2

def Value.pending : Value → Nat
  | column _ => 3
  | parameter => 1
  | one => 1
  | day v => max (3 + v.pending) 5
  | lower v => max (3 + v.pending) 5
  | year v => max (5 + v.pending) 9

namespace Test

mutual

-- The height of the expression tree; a chain of n operands has n - 1 levels of its own.
def height : Test → Nat
  | .compare _ a b => max a.height b.height + 1
  | .compareFolded _ a b => max a.height (b.height + 1) + 1
  | .holds whole part => max whole.height part.height + 2
  | .exists' rows t => max (if rows = .labels then 4 else 3) (height t) + 2
  | .notExists rows t => max (if rows = .labels then 4 else 3) (height t) + 3
  | .not t => height t + 1
  | .and ts => heightOfChain 0 ts
  | .or ts => heightOfChain 0 ts

def heightOfChain (before : Nat) : List Test → Nat
  | [] => before
  | t :: rest =>
    heightOfChain (if before = 0 then height t else max before (height t) + 1) rest

end

mutual

-- The most symbols that wait at once while the expression is read.
def pending : Test → Nat
  | .compare _ a b => max a.pending (2 + b.pending)
  | .compareFolded _ a b => max a.pending (max (2 + b.pending) 5)
  | .holds whole part => max (3 + whole.pending) (max (5 + part.pending) 6)
  | .exists' _ t => max 16 (9 + pending t)
  | .notExists _ t => max 17 (10 + pending t)
  | .not t => 2 + pending t
  | .and ts => pendingOfChain 1 ts
  | .or ts => pendingOfChain 1 ts

-- The first operand has only its parenthesis before it, the others the operands before too.
def pendingOfChain (before : Nat) : List Test → Nat
  | [] => 0
  | t :: rest => max (before + pending t) (pendingOfChain 3 rest)

end

mutual

def subqueryHeight : Test → Nat
  | .compare .. => 0
  | .compareFolded .. => 0
  | .holds .. => 0
  | .exists' rows t => max (if rows = .labels then 4 else 3) (height t) + 2 + subqueryHeight t
  | .notExists rows t => max (if rows = .labels then 4 else 3) (height t) + 2 + subqueryHeight t
  | .not t => subqueryHeight t
  | .and ts => subqueryHeights ts
  | .or ts => subqueryHeights ts

def subqueryHeights : List Test → Nat
  | [] => 0
  | t :: rest => max (subqueryHeight t) (subqueryHeights rest)

end

-- The greatest height of an expression.
def maxHeight : Nat := 1000

-- The most symbols that can wait at once.
def maxPending : Nat := 99

-- Joined to the user's id and to the albums, the test and its subqueries are not too high.
def IsLow (t : Test) : Prop := t.height + 2 + t.subqueryHeight ≤ maxHeight

-- Behind the eight symbols of its query, the test is not too deep to be read.
def IsReadable (t : Test) : Prop := 8 + t.pending ≤ maxPending

instance (t : Test) : Decidable t.IsLow := by unfold IsLow; infer_instance

instance (t : Test) : Decidable t.IsReadable := by unfold IsReadable; infer_instance

end Test

structure Filter where
  test : Test
  parameters : List Datum
deriving Repr

def Filter.text (f : Filter) : String := f.test.text

def Filter.passes (f : Filter) (s : Scope) : Bool := f.test.eval s f.parameters == some true

end LabelPlaylists.Sql
