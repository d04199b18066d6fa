import LabelPlaylists.Json.Basic
import LabelPlaylists.Number.Shortest
import LabelPlaylists.Text.Quoted

/-!
JSON text in ASCII alone: every other character is an escape in UTF-16 units, items are separated
by a comma and a blank. Messages show values otherwise: texts between quotes, as None, True and False,
and containers with their items separated by a comma and a blank.
-/

namespace LabelPlaylists.Json

open Text

def escapedUnit (n : Nat) : List Char := backslash :: 'u' :: hex 4 n

def escapedChar (c : Char) : List Char :=
  if c = doubleQuote ∨ c = backslash then [backslash, c]
  else if c = '\n' then [backslash, 'n']
  else if c = '\r' then [backslash, 'r']
  else if c = '\t' then [backslash, 't']
  else if c.toNat = 8 then [backslash, 'b']
  else if c.toNat = 12 then [backslash, 'f']
  else if 32 ≤ c.toNat ∧ c.toNat < 127 then [c]
  else if c.toNat < 0x10000 then escapedUnit c.toNat
  else escapedUnit (0xD800 + (c.toNat - 0x10000) / 1024)
    ++ escapedUnit (0xDC00 + (c.toNat - 0x10000) % 1024)

def stringText (s : String) : String :=
  String.ofList (doubleQuote :: s.toList.flatMap escapedChar ++ [doubleQuote])

def realText : Binary64 → String
  | .nan => "NaN"
  | .infinite negative => if negative then "-Infinity" else "Infinity"
  | x => x.text

mutual

def text : Json → String
  | .null => "null"
  | .bool b => if b then "true" else "false"
  | .int n => toString n
  | .real x => realText x
  | .str s => stringText s
  | .arr elements => "[" ++ ", ".intercalate (elementTexts elements) ++ "]"
  | .obj fields => "\x7b" ++ ", ".intercalate (fieldTexts fields) ++ "\x7d"

def elementTexts : List Json → List String
  | [] => []
  | j :: rest => text j :: elementTexts rest

def fieldTexts : List (String × Json) → List String
  | [] => []
  | (name, j) :: rest => (stringText name ++ ": " ++ text j) :: fieldTexts rest

end


mutual

def shown : Json → String
  | .null => "None"
  | .bool b => if b then "True" else "False"
  | .int n => toString n
  | .real x => x.text
  | .str s => Text.quoted s
  | .arr elements => "[" ++ ", ".intercalate (shownElements elements) ++ "]"
  | .obj fields => "\x7b" ++ ", ".intercalate (shownFields fields) ++ "\x7d"

def shownElements : List Json → List String
  | [] => []
  | j :: rest => shown j :: shownElements rest

def shownFields : List (String × Json) → List String
  | [] => []
  | (name, j) :: rest => (Text.quoted name ++ ": " ++ shown j) :: shownFields rest

end

end LabelPlaylists.Json
