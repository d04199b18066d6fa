import LabelPlaylists.Sql.Truth

/-!
How two ordered values compare.
-/

namespace LabelPlaylists

inductive Relation where
  | eq
  | ne
  | lt
  | le
  | gt
  | ge
deriving DecidableEq, Repr

namespace Relation

def sql : Relation → String
  | eq => "="
  | ne => "<>"
  | lt => "<"
  | le => "<="
  | gt => ">"
  | ge => ">="

def holds : Relation → Ordering → Bool
  | eq, o => o.isEq
  | ne, o => o.isNe
  | lt, o => o.isLT
  | le, o => o.isLE
  | gt, o => o.isGT
  | ge, o => o.isGE

-- The relation that holds of the values that do not stand in this one.
def opposite : Relation → Relation
  | eq => ne
  | ne => eq
  | lt => ge
  | le => gt
  | gt => le
  | ge => lt

theorem holds_opposite (r : Relation) (o : Ordering) : r.opposite.holds o = !r.holds o := by
  cases r <;> cases o <;> rfl

end Relation

end LabelPlaylists
