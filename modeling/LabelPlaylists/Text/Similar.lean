/-!
How much two texts are alike: twice the characters that match in order, against all characters. The
longest common run matches first, and then what lies on its left and on its right.
-/

namespace LabelPlaylists.Text

def commonStart : List Char → List Char → Nat
  | c :: s, d :: t => if c = d then commonStart s t + 1 else 0
  | _, _ => 0

-- A run that two texts have in common: where it starts in each, and its length.
structure CommonRun where
  left : Nat
  right : Nat
  length : Nat

def longestRun (s t : List Char) : CommonRun :=
  let starts := (List.range s.length).flatMap fun i => (List.range t.length).map fun j => (i, j)
  starts.foldl (fun best (i, j) =>
    let n := commonStart (s.drop i) (t.drop j)
    if best.length < n then ⟨i, j, n⟩ else best) ⟨0, 0, 0⟩

-- The number of characters that match; the fuel bounds the number of runs in a row.
def matching : Nat → List Char → List Char → Nat
  | 0, _, _ => 0
  | fuel + 1, s, t =>
    let run := longestRun s t
    if run.length = 0 then 0
    else
      matching fuel (s.take run.left) (t.take run.right) + run.length
        + matching fuel (s.drop (run.left + run.length)) (t.drop (run.right + run.length))

-- Twice the characters that match, and all characters.
def likeness (s t : String) : Nat × Nat :=
  (matching (s.length + 1) s.toList t.toList * 2, s.length + t.length)

-- The first is more alike than the second; of two that are equally so, the later text.
def isCloser (a b : (Nat × Nat) × String) : Bool :=
  let (m, n) := a.1
  let (m', n') := b.1
  if m * n' = m' * n then b.2 < a.2 else m' * n < m * n'

-- The three known texts that are most like a text, in order, if at least six tenths match.
def similar (known : List String) (s : String) : List String :=
  let rated := known.map fun k => (likeness k s, k)
  let close := rated.filter fun ((m, n), _) => 3 * n ≤ 5 * m
  let best := (close.mergeSort fun a b => isCloser a b).take 3
  (best.map (·.2)).mergeSort fun a b => !(b < a)

end LabelPlaylists.Text
