/-!
Octets written in base 64, four characters for three octets. Characters that are no digits are passed
over, and an equals sign in the second half of a group of four may end the text.
-/

namespace LabelPlaylists.Yaml.Base64

def digit? (c : Char) : Option Nat :=
  let n := c.toNat
  if 'A' ≤ c ∧ c ≤ 'Z' then some (n - 65)
  else if 'a' ≤ c ∧ c ≤ 'z' then some (n - 71)
  else if '0' ≤ c ∧ c ≤ '9' then some (n + 4)
  else if c = '+' then some 62
  else if c = '/' then some 63
  else none

-- The octets of a text: `place` digits of the group have been read, what is left of the last one is
-- `left`, and `pads` equals signs have come since.
def octets? (place left pads : Nat) : List Char → Option (List Nat)
  | [] => if place = 0 then some [] else none
  | c :: rest =>
    if c = '=' then
      if 2 ≤ place ∧ 4 ≤ place + pads + 1 then some []
      else octets? place left (if 2 ≤ place then pads + 1 else pads) rest
    else
      match digit? c with
      | none => octets? place left pads rest
      | some d =>
        match place with
        | 0 => octets? 1 d 0 rest
        | 1 => (octets? 2 (d % 16) 0 rest).map ((left * 4 + d / 16) :: ·)
        | 2 => (octets? 3 (d % 4) 0 rest).map ((left * 16 + d / 4) :: ·)
        | _ => (octets? 0 0 0 rest).map ((left * 64 + d) :: ·)

end LabelPlaylists.Yaml.Base64
