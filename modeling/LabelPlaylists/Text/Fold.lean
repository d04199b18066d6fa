/-!
Case folding as the store does it: the letters A to Z equal a to z, and every other character
equals itself alone.
-/

namespace LabelPlaylists.Text

def fold (s : List Char) : List Char := s.map Char.toLower

def folded (s : String) : String := String.ofList (fold s.toList)

def sameFolded (s t : String) : Bool := fold s.toList == fold t.toList

def occursIn (part : List Char) : List Char → Bool
  | [] => part.isEmpty
  | c :: rest => part.isPrefixOf (c :: rest) || occursIn part rest

theorem occursIn_iff {part s : List Char} : occursIn part s ↔ part <:+: s := by
  induction s with
  | nil => simp [occursIn]
  | cons c rest ih => simp [occursIn, ih, List.infix_cons_iff]

theorem sameFolded_iff {s t : String} : sameFolded s t ↔ fold s.toList = fold t.toList := by
  simp [sameFolded]

theorem sameFolded_refl (s : String) : sameFolded s s := by simp [sameFolded]

end LabelPlaylists.Text
