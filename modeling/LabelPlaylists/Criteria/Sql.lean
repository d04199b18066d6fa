import LabelPlaylists.Criteria.Condition
import LabelPlaylists.Sql.Test

/-!
Conditions as tests of the store. Literals never enter the test: each stands as a question mark and
is listed among the parameters, from left to right.
-/

namespace LabelPlaylists.Criteria

open Sql (Column Filter Rows Test Value)

namespace TextAttribute

def column : TextAttribute → Column
  | name => .name
  | album => .album
  | artist => .artist
  | genre => .genre
  | label => .label

-- For an attribute with several values, what they come from.
def rows? : TextAttribute → Option Rows
  | name | album => none
  | artist => some .artists
  | genre => some .genres
  | label => some .labels

end TextAttribute

def DayAttribute.column : DayAttribute → Column
  | added => .added
  | released => .released

namespace Condition

def textTest (a : TextAttribute) (r : TextRelation) : Test :=
  let same := Test.compareFolded .eq (.column a.column) .parameter
  let holds := Test.holds (.lower (.column a.column)) (.lower .parameter)
  match a.rows?, r with
  | none, .equals => same
  | none, .differs => .compareFolded .ne (.column a.column) .parameter
  | none, .contains => holds
  | some rows, .equals => .exists' rows same
  | some rows, .differs => .notExists rows same
  | some rows, .contains => .exists' rows holds

mutual

def test : Condition → Test
  | .isExplicit => .compare .eq (.column .explicit) .one
  | .explicit same _ => .compare (if same then .eq else .ne) (.column .explicit) .parameter
  | .text a r _ => textTest a r
  | .day a r _ => .compare r (.day (.column a.column)) .parameter
  | .year r _ => .compare r (.year (.column .released)) .parameter
  | .not c => .not (test c)
  | .and cs => .and (tests cs)
  | .or cs => .or (tests cs)

def tests : List Condition → List Test
  | [] => []
  | c :: rest => test c :: tests rest

end

mutual

-- The values of the question marks.
def parameters : Condition → List Datum
  | .isExplicit => []
  | .explicit _ value => [.integer (if value then 1 else 0)]
  | .text _ _ value => [.text value]
  | .day _ _ value => [.text value]
  | .year _ value => [.integer value]
  | .not c => parameters c
  | .and cs => parametersOf cs
  | .or cs => parametersOf cs

def parametersOf : List Condition → List Datum
  | [] => []
  | c :: rest => parameters c ++ parametersOf rest

end

def filter (c : Condition) : Filter := ⟨test c, parameters c⟩

end Condition

end LabelPlaylists.Criteria
