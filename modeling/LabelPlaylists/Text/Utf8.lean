/-!
The UTF-8 octets of a text, for rules that count octets or read a text octet by octet, and reading
such octets. What is no character is either refused, or taken as one replacement character for each
longest start of a character that breaks off.
-/

namespace LabelPlaylists.Text

-- The UTF-8 octets of a text, each as the character of its number, so that ASCII characters stand
-- for themselves.
def octets (s : String) : List Char := s.toUTF8.toList.map fun b => Char.ofNat b.toNat

-- The octets before the first null, which is all that a reader of terminated text sees.
def octetsToNull (s : String) : List Char := (octets s).takeWhile (·.toNat ≠ 0)

end LabelPlaylists.Text

namespace LabelPlaylists.Text.Utf8

-- What octets start with: a character of so many octets, or so many octets that are none.
inductive Step where
  | char (c : Char) (width : Nat)
  | broken (width : Nat)
deriving DecidableEq, Repr

def isTail (b : Nat) : Bool := 0x80 ≤ b && b ≤ 0xBF

-- The least and greatest second octet after a first one, and the number of octets in all.
def lead? (b : Nat) : Option (Nat × Nat × Nat) :=
  if 0xC2 ≤ b ∧ b ≤ 0xDF then some (0x80, 0xBF, 2)
  else if b = 0xE0 then some (0xA0, 0xBF, 3)
  else if b = 0xED then some (0x80, 0x9F, 3)
  else if 0xE1 ≤ b ∧ b ≤ 0xEF then some (0x80, 0xBF, 3)
  else if b = 0xF0 then some (0x90, 0xBF, 4)
  else if 0xF1 ≤ b ∧ b ≤ 0xF3 then some (0x80, 0xBF, 4)
  else if b = 0xF4 then some (0x80, 0x8F, 4)
  else none

def step (b : Nat) (rest : List Nat) : Step :=
  if b < 0x80 then .char (Char.ofNat b) 1
  else
    match lead? b with
    | none => .broken 1
    | some (low, high, width) =>
      match rest with
      | [] => .broken 1
      | c :: more =>
        if c < low ∨ high < c then .broken 1
        else
          let tails := (more.take (width - 2)).takeWhile isTail
          if tails.length < width - 2 then .broken (2 + tails.length)
          else
            let first := if width = 2 then b % 32 else if width = 3 then b % 16 else b % 8
            .char (Char.ofNat ((c :: tails).foldl (fun n t => n * 64 + t % 64) first)) width

-- The characters of octets, `skip` of which belong to the character before.
def replacing : Nat → List Nat → List Char
  | _, [] => []
  | skip + 1, _ :: rest => replacing skip rest
  | 0, b :: rest =>
    match step b rest with
    | .char c width => c :: replacing (width - 1) rest
    | .broken width => Char.ofNat 0xFFFD :: replacing (width - 1) rest

-- The characters of octets, if all of them are characters.
def strict? : Nat → List Nat → Option (List Char)
  | _, [] => some []
  | skip + 1, _ :: rest => strict? skip rest
  | 0, b :: rest =>
    match step b rest with
    | .char c width => (strict? (width - 1) rest).map (c :: ·)
    | .broken _ => none

end LabelPlaylists.Text.Utf8
