import LabelPlaylists.Criteria.Tree
import LabelPlaylists.Proofs.Calendar.Stored
import LabelPlaylists.Sql.Truth
import LabelPlaylists.Text.Fold
import Mathlib.Data.List.Infix

namespace LabelPlaylists.Criteria

-- What criteria can ask of a track. A day or a year is missing if the store has none.
structure Facts where
  name       : String
  album      : String
  artists    : List String
  genres     : List String
  labels     : List String
  isExplicit : Bool
  added      : Option Day
  released   : Option Day
  year       : Option Int

namespace Operator

-- What an operator says of the texts of an attribute and a literal, without regard to the case of
-- A to Z:
-- 1. "=" holds if some text equals the literal
-- 2. "!=" holds if no text equals the literal
-- 3. "~" holds if some text contains the literal
def ofTexts (o : Operator) (texts : List String) (literal : String) : Truth :=
  match o with
  | .eq       => some (decide (∃ s ∈ texts, Text.fold s.toList = Text.fold literal.toList))
  | .ne       => some (decide (∀ s ∈ texts, Text.fold s.toList ≠ Text.fold literal.toList))
  | .contains => some (decide (∃ s ∈ texts, Text.fold literal.toList <:+: Text.fold s.toList))
  | _         => none

-- What an operator says of two values in the given order.
def ofOrder (o : Operator) (order : Ordering) : Truth :=
  match o with
  | .eq => some (order = .eq)
  | .ne => some (order ≠ .eq)
  | .lt => some (order = .lt)
  | .le => some (order ≠ .gt)
  | .gt => some (order = .gt)
  | .ge => some (order ≠ .lt)
  | _   => none

-- What an operator says of a day and a written one.
def ofDays (o : Operator) (day : Option Day) (literal : String) : Truth :=
  match day, Day.ofIso? literal with
  | some d, some e => o.ofOrder (d.order e)
  | _, _           => none

end Operator

-- What the facts say to a comparison. A missing day or year leaves it unknown, and so does a
-- comparison that makes no sense.
def Facts.compared (f : Facts) (o : Operator) : String → Literal → Truth
  | "name", .text s     => o.ofTexts [f.name] s
  | "album", .text s    => o.ofTexts [f.album] s
  | "artist", .text s   => o.ofTexts f.artists s
  | "genre", .text s    => o.ofTexts f.genres s
  | "label", .text s    => o.ofTexts f.labels s
  | "explicit", .flag b => o.ofOrder (compare f.isExplicit b)
  | "added", .text s    => o.ofDays f.added s
  | "released", .text s => o.ofDays f.released s
  | "year", .number n   => f.year.bind fun y => o.ofOrder (compare y n)
  | _, _                => none

namespace Tree

mutual

-- Whether a predicate is true of a track.
def meaning (f : Facts) : Tree → Truth
  | .bare name _             => if name = "explicit" then some f.isExplicit else none
  | .comparison name o v _   => f.compared o name v
  | .not t                   => (meaning f t).not
  | .and ts                  => (meanings f ts).foldr .and (some true)
  | .or ts                   => (meanings f ts).foldr .or (some false)
  | .foreign                 => none

def meanings (f : Facts) : List Tree → List Truth
  | []        => []
  | t :: rest => meaning f t :: meanings f rest

end

end Tree

end LabelPlaylists.Criteria
