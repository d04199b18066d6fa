/-!
Absolute paths of files. A path as written may be relative to a directory and may start with the home
of a user; dots and double dots are worked out without looking at the files.
-/

namespace LabelPlaylists

-- An absolute path, as the names from the root on.
abbrev Path := List String

namespace Path

-- Names with slashes in front; the root is a slash alone.
def text (p : Path) : String :=
  if p.isEmpty then "/" else String.join (p.map ("/" ++ ·))

-- The directory that a path lies in; the root lies in itself.
def parent (p : Path) : Path := p.dropLast

-- The names of a written path. Empty names and dots mean nothing.
def names (s : String) : List String := (s.splitToList (· = '/')).filter fun n => n ≠ "" && n ≠ "."

def isAbsolute (s : String) : Bool := s.toList.head? = some '/'

-- Follows names from a path on. A double dot leads back, and at the root nowhere.
def follow (p : Path) (names : List String) : Path :=
  names.foldl (fun p n => if n = ".." then p.parent else p ++ [n]) p

inductive Fault where
  | unknownUser (name : String)
  | nullCharacter
deriving DecidableEq, Repr

structure Base where
  directory : Path
  home : Path
  homes : List (String × Path) := []
deriving Repr

-- The homes that a list of users gives: one user on each line, with a home in the sixth field.
def homesOf (users : String) : List (String × Path) :=
  (users.splitToList (· = '\n')).filterMap fun line =>
    match line.splitToList (· = ':') with
    | name :: _ :: _ :: _ :: _ :: home :: _ => some (name, names home)
    | _ => none

def home? (base : Base) (name : String) : Option Path :=
  if name = "" then some base.home else base.homes.lookup name

def checked (p : Path) : Except Fault Path :=
  if p.any (·.toList.contains '\x00') then .error .nullCharacter else .ok p

-- Where a written path leads. A tilde and a name at its start stand for a home.
def ofText (base : Base) (s : String) : Except Fault Path := do
  match isAbsolute s, names s with
  | false, first :: rest =>
    match first.toList with
    | '~' :: name =>
      match home? base (String.ofList name) with
      | some home => return home.follow (← checked rest)
      | none =>
        if name.contains '\x00' then .error .nullCharacter
        else .error (.unknownUser (String.ofList name))
    | _ => return base.directory.follow (← checked (first :: rest))
  | isAbsolute, names => return follow (if isAbsolute then [] else base.directory) (← checked names)

theorem follow_nil (p : Path) : p.follow [] = p := rfl

theorem follow_append (p : Path) (ns ms : List String) :
    p.follow (ns ++ ms) = (p.follow ns).follow ms := by
  simp [follow]

end Path

end LabelPlaylists
