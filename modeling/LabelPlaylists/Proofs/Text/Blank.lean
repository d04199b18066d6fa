import Mathlib.Data.List.TakeWhile
import LabelPlaylists.Text.Blank

namespace LabelPlaylists.Text

variable {c : Char} {s : List Char}

theorem mem_trim (h : c ∈ s) (hb : ¬isBlank c) : c ∈ trim s := by
  have hd {l : List Char} (h : c ∈ l) : c ∈ l.dropWhile isBlank := by
    rw [← List.takeWhile_append_dropWhile (p := isBlank) (l := l)] at h
    exact (List.mem_append.mp h).resolve_left fun h => hb (List.mem_takeWhile_imp h)
  exact List.mem_reverse.mpr (hd (List.mem_reverse.mpr (hd h)))

-- A text without blanks is all that is left of it when blanks are put around it.
theorem trimmed_surrounded {front s back : String} (hf : ∀ c ∈ front.toList, isBlank c)
    (hb : ∀ c ∈ back.toList, isBlank c) (hs : ∀ c ∈ s.toList, ¬isBlank c) (hn : s.toList ≠ []) :
    trimmed (front ++ s ++ back) = s := by
  have hv {l : List Char} (hl : ∀ c ∈ l, ¬isBlank c) (t : List Char) (hn : l ≠ []) :
      (l ++ t).dropWhile isBlank = l ++ t := by
    obtain ⟨c, l, rfl⟩ := List.exists_cons_of_ne_nil hn
    exact List.dropWhile_cons_of_neg (hl c List.mem_cons_self)
  rw [trimmed, trim, trimStart, trimStart, String.toList_append, String.toList_append, List.append_assoc,
    List.dropWhile_append_of_pos hf, hv hs _ hn, List.reverse_append, List.dropWhile_append_of_pos (by simpa using hb)]
  have := hv (l := s.toList.reverse) (by simpa using hs) [] (by simpa using hn)
  rw [List.append_nil] at this
  rw [this, List.reverse_reverse, String.ofList_toList]

-- A text that neither starts nor ends with a blank, and is not empty.
structure IsTight (s : String) : Prop where
  ne_empty : s ≠ ""
  first    : ∀ c, s.toList.head? = some c → ¬isBlank c
  last     : ∀ c, s.toList.getLast? = some c → ¬isBlank c

theorem not_isBlank_of_head? (h : (s.dropWhile isBlank).head? = some c) : ¬isBlank c := by
  have := List.head?_dropWhile_not isBlank s
  rw [h] at this
  simpa using this

theorem isTight_trimmed {s : String} (h : trimmed s ≠ "") : IsTight (trimmed s) := by
  have hn : trim s.toList ≠ [] := fun he => h (congrArg String.ofList he)
  -- What is cut off at the end does not reach the first character.
  have hp : trim s.toList <+: trimStart s.toList :=
    List.reverse_suffix.mp (List.reverse_reverse _ ▸ List.dropWhile_suffix _)
  refine ⟨h, fun c hc => ?_, fun c hc => ?_⟩ <;> rw [trimmed, String.toList_ofList] at hc
  case refine_1 =>
    have ⟨back, hb⟩ := hp
    refine not_isBlank_of_head? (s := s.toList) ?_
    rw [← trimStart, ← hb, List.head?_append, hc, Option.some_or]
  case refine_2 => exact not_isBlank_of_head? (List.getLast?_reverse ▸ hc)

end LabelPlaylists.Text
