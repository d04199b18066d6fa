/-!
Sets of characters written as ranges of code points, both ends included.
-/

namespace LabelPlaylists.Text

-- A set of characters, as ranges of code points in ascending order.
abbrev Ranges := List (Nat × Nat)

namespace Ranges

def has (rs : Ranges) (c : Char) : Bool :=
  rs.any fun r => r.1 ≤ c.toNat && c.toNat ≤ r.2

theorem has_iff {rs : Ranges} {c : Char} :
    rs.has c ↔ ∃ r ∈ rs, r.1 ≤ c.toNat ∧ c.toNat ≤ r.2 := by
  simp [has]

end Ranges

end LabelPlaylists.Text
