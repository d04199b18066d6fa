import LabelPlaylists.Text.Utf8

/-!
Percent encoding and form encoding. A form is a list of names and values joined by `=` and `&`, with
a plus sign for each blank and every other octet beyond letters, digits and `-._~` as its two
hexadecimal digits behind a percent sign.
-/

namespace LabelPlaylists.Web

open Text

def isUnreserved (c : Char) : Bool := c.isAlphanum || c = '-' || c = '.' || c = '_' || c = '~'

def hexDigit (n : Nat) : Char := Char.ofNat (if n < 10 then 48 + n else 55 + n)

def escapedOctet (n : Nat) : List Char := ['%', hexDigit (n / 16), hexDigit (n % 16)]

-- Percent encoding, sparing some characters besides the unreserved ones.
def percentEncode (spared : List Char) (s : String) : List Char :=
  (octets s).flatMap fun c =>
    if isUnreserved c || spared.contains c then [c] else escapedOctet c.toNat

def formEncode (s : String) : List Char :=
  (percentEncode [' '] s).map fun c => if c = ' ' then '+' else c

def formText (fields : List (String × String)) : String :=
  "&".intercalate <| fields.map fun (name, value) =>
    String.ofList (formEncode name ++ '=' :: formEncode value)

def hexValue? (c : Char) : Option Nat :=
  if '0' ≤ c ∧ c ≤ '9' then some (c.toNat - 48)
  else if 'a' ≤ c ∧ c ≤ 'f' then some (c.toNat - 87)
  else if 'A' ≤ c ∧ c ≤ 'F' then some (c.toNat - 55)
  else none

-- The octets that a run of ASCII characters stands for. A percent sign without two hexadecimal
-- digits stands for itself.
def unescaped : List Char → List Nat
  | '%' :: a :: b :: rest =>
    match hexValue? a, hexValue? b with
    | some m, some n => (16 * m + n) :: unescaped rest
    | _, _ => '%'.toNat :: unescaped (a :: b :: rest)
  | c :: rest => c.toNat :: unescaped rest
  | [] => []

-- Decodes each run of ASCII characters on its own; `run` is the current one in reverse.
def decodeRuns (run : List Char) : List Char → List Char
  | [] => Utf8.replacing 0 (unescaped run.reverse)
  | c :: rest =>
    if c.toNat < 128 then decodeRuns (c :: run) rest
    else Utf8.replacing 0 (unescaped run.reverse) ++ c :: decodeRuns [] rest

def formDecode (s : List Char) : String :=
  String.ofList (decodeRuns [] (s.map fun c => if c = '+' then ' ' else c))

def splitAt (separator : Char) : List Char → List (List Char)
  | [] => [[]]
  | c :: rest =>
    if c = separator then [] :: splitAt separator rest
    else
      match splitAt separator rest with
      | first :: others => (c :: first) :: others
      | [] => [[c]]

-- The fields of a form; a field without a value is left out.
def formFields (s : List Char) : List (String × String) :=
  (splitAt '&' s).filterMap fun field =>
    let name := field.takeWhile (· ≠ '=')
    let value := (field.dropWhile (· ≠ '=')).drop 1
    if value.isEmpty then none else some (formDecode name, formDecode value)

def fieldValue? (fields : List (String × String)) (name : String) : Option String :=
  (fields.find? (·.1 = name)).map (·.2)

end LabelPlaylists.Web
