import LabelPlaylists.Web.Host

/-!
The query of a URL: what stands between the first question mark and the fragment. Tabs and line
breaks inside a URL are passed over.
-/

namespace LabelPlaylists.Web

-- Characters whose compatibility form holds one of the characters that delimit a host.
def disguisedDelimiters : List Nat :=
  [0x2047, 0x2048, 0x2049, 0x2100, 0x2101, 0x2105, 0x2106, 0x2A74, 0xFE13, 0xFE16, 0xFE55, 0xFE56,
    0xFE5F, 0xFE6B, 0xFF03, 0xFF0F, 0xFF1A, 0xFF1F, 0xFF20]

def isSchemeChar (c : Char) : Bool := c.isAlphanum || c = '+' || c = '-' || c = '.'

def dropScheme (s : List Char) : List Char :=
  let name := s.takeWhile (· ≠ ':')
  match s.dropWhile (· ≠ ':') with
  | _ :: rest =>
    if (name.head?.any Char.isAlpha) && name.all isSchemeChar then rest else s
  | [] => s

-- What stands behind the last occurrence of a character, the whole text if it does not occur.
def afterLast (c : Char) (s : List Char) : List Char := (s.reverse.takeWhile (· ≠ c)).reverse

-- The address of a host and port: between brackets, before which nothing stands and after which at
-- most a colon and a port, or else all before the first colon.
def address? (host : List Char) : Option (List Char) :=
  if host.contains '[' then
    let port := (host.dropWhile (· ≠ ']')).drop 1
    if host.head? = some '[' ∧ (port = [] ∨ port.head? = some ':') then
      some ((host.drop 1).takeWhile (· ≠ ']'))
    else none
  else some (host.takeWhile (· ≠ ':'))

-- A network location is refused if its brackets do not match or, with brackets anywhere, its host
-- is no address, or if a character would turn into a delimiter.
def isLocation (s : List Char) : Bool :=
  let opened := s.contains '['
  opened == s.contains ']'
    && (!opened || (address? (afterLast '@' s)).any isBracketedHost)
    && s.all fun c => !disguisedDelimiters.contains c.toNat

-- The query of a URL, empty if it has none; a bad network location is refused.
def query? (url : String) : Option (List Char) :=
  let s := url.toList.dropWhile fun c => c.toNat ≤ 32
  let s := dropScheme (s.filter fun c => c ≠ '\t' ∧ c ≠ '\r' ∧ c ≠ '\n')
  let isEnd (c : Char) : Bool := c = '/' || c = '?' || c = '#'
  let (location, rest) := match s with
    | '/' :: '/' :: more => (more.takeWhile (!isEnd ·), more.dropWhile (!isEnd ·))
    | _ => ([], s)
  if isLocation location then
    some (((rest.takeWhile (· ≠ '#')).dropWhile (· ≠ '?')).drop 1)
  else none

end LabelPlaylists.Web
