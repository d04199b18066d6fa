import LabelPlaylists.Text.Ranges

/-!
Blank characters: the white space of Unicode together with the four information separators
(U+001C to U+001F). A zero width space and a byte order mark are not blank.
-/

namespace LabelPlaylists.Text

def blankRanges : Ranges :=
  [(9, 13), (28, 32), (133, 133), (160, 160), (5760, 5760), (8192, 8202), (8232, 8233),
   (8239, 8239), (8287, 8287), (12288, 12288)]

-- White space, wherever a text is split into words or trimmed.
def isBlank (c : Char) : Bool := blankRanges.has c

def trimStart (s : List Char) : List Char := s.dropWhile isBlank

def trim (s : List Char) : List Char := (trimStart (trimStart s).reverse).reverse

def trimmed (s : String) : String := String.ofList (trim s.toList)

theorem isBlank_of_isWhitespace {c : Char} (h : c.isWhitespace = true) : isBlank c = true := by
  simp only [Char.isWhitespace, Bool.or_eq_true, decide_eq_true_eq] at h
  rcases h with ((rfl | rfl) | rfl) | rfl <;> decide

end LabelPlaylists.Text
