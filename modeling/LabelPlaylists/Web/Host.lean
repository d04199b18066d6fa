import LabelPlaylists.Web.Form
import LabelPlaylists.Text.Digit

/-!
Host names in brackets: an IPv6 address with an optional zone, or an address of a later version.
-/

namespace LabelPlaylists.Web

open Text

def isDottedPart (s : List Char) : Bool :=
  !s.isEmpty && s.all isAsciiDigit && s.length ≤ 3 && (s = ['0'] || s.head? ≠ some '0')
    && asciiValue s ≤ 255

def isDottedAddress (s : List Char) : Bool :=
  let parts := splitAt '.' s
  parts.length = 4 && parts.all isDottedPart

def isHextet (s : List Char) : Bool :=
  !s.isEmpty && s.length ≤ 4 && s.all fun c => (hexValue? c).isSome

-- Groups with colons between them. One empty group inside stands for one or more groups of zeros,
-- and then the first or last group may be empty beside it.
def isGroups (parts : List (List Char)) : Bool :=
  let inner := (parts.drop 1).dropLast
  match inner.countP (·.isEmpty) with
  | 0 => parts.length = 8 && parts.all isHextet
  | 1 =>
    let skip := 1 + (inner.takeWhile (!·.isEmpty)).length
    let high := parts.take skip
    let low := parts.drop (skip + 1)
    let high := if high.head? = some [] then high.drop 1 else high
    let low := if low.getLast? = some [] then low.dropLast else low
    let openLeft := (parts.head? = some []) && !high.isEmpty
    let openRight := (parts.getLast? = some []) && !low.isEmpty
    !openLeft && !openRight && high.length + low.length < 8 && high.all isHextet
      && low.all isHextet
  | _ => false

-- An IPv6 address, the last two groups of which may be written as a dotted address.
def isIpv6 (s : List Char) : Bool :=
  let zoned := s.contains '%'
  let zone := (s.dropWhile (· ≠ '%')).drop 1
  let parts := splitAt ':' (s.takeWhile (· ≠ '%'))
  let last := parts.getLast?.getD []
  let dotted := last.contains '.'
  let groups := if dotted then parts.dropLast ++ [['0'], ['0']] else parts
  !s.contains '/' && (!zoned || (!zone.isEmpty && !zone.contains '%')) && 3 ≤ parts.length
    && (!dotted || isDottedAddress last) && groups.length ≤ 9 && isGroups groups

-- The letter v, hexadecimal digits, a point, and at least one more character on the same line.
def isFutureAddress (s : List Char) : Bool :=
  match s with
  | 'v' :: rest =>
    let digits := rest.takeWhile fun c => (hexValue? c).isSome
    match rest.dropWhile fun c => (hexValue? c).isSome with
    | '.' :: more => !digits.isEmpty && !more.isEmpty && !more.contains '\n'
    | _ => false
  | _ => false

def isBracketedHost (s : List Char) : Bool :=
  if s.head? = some 'v' then isFutureAddress s else isIpv6 s

end LabelPlaylists.Web
