/-!
Cutting lists into pieces that a request can carry. The pieces joined again are the list, and each
holds between one item and the given number of them.
-/

namespace LabelPlaylists

variable {α : Type}

-- Consecutive pieces of `more + 1` items, the last of which may be shorter.
def pieces (more : Nat) : List α → List (List α)
  | [] => []
  | x :: rest => (x :: rest.take more) :: pieces more (rest.drop more)
termination_by items => items.length
decreasing_by simp only [List.length_drop, List.length_cons]; omega

-- Pieces of a given size. A negative size gives no pieces, and a size of zero is refused.
def piecesOf? (size : Int) (items : List α) : Option (List (List α)) :=
  if size = 0 then none else if size < 0 then some [] else some (pieces (size.toNat - 1) items)

theorem flatten_pieces (more : Nat) (items : List α) : (pieces more items).flatten = items := by
  fun_induction pieces more items with
  | case1 => rfl
  | case2 x rest ih => simp [ih]

theorem length_le_of_mem_pieces {more : Nat} {items piece : List α}
    (h : piece ∈ pieces more items) : 1 ≤ piece.length ∧ piece.length ≤ more + 1 := by
  fun_induction pieces more items with
  | case1 => simp at h
  | case2 x rest ih =>
    rcases List.mem_cons.1 h with rfl | h
    · simp only [List.length_cons, List.length_take]; omega
    · exact ih h

end LabelPlaylists
