import LabelPlaylists.Library.Store
import LabelPlaylists.Program.Failure
import LabelPlaylists.Settings.Load

/-!
The files of a simulated machine, by their absolute paths. A library file holds the tables that were
last saved; any other file is text.
-/

namespace LabelPlaylists.Simulation

inductive File where
  | text (s : String)
  | octets (bytes : List Nat)
  | library (t : Library.Tables)
deriving Repr

structure Disk where
  files : List (String × File) := []
  directories : List String := []
deriving Repr

namespace Disk

def file? (d : Disk) (path : String) : Option File := (d.files.find? (·.1 = path)).map (·.2)

def isDirectory (d : Disk) (path : String) : Bool := d.directories.contains path

def write (d : Disk) (path : String) (f : File) : Disk :=
  { d with files := (path, f) :: d.files.filter (·.1 ≠ path) }

def parent (path : String) : String :=
  let front := (path.toList.reverse.dropWhile (· ≠ '/')).drop 1
  if front.isEmpty then "/" else String.ofList front.reverse

-- Opens the library at a path. An empty file, or none, becomes a new library.
def openLibrary (d : Disk) (path : String) : Except Library.OpenFailure Library.Store :=
  if !d.isDirectory (parent path) then .error (.noDirectory (parent path))
  else if d.isDirectory path then .error (.notAFile path)
  else
    match d.file? path with
    | none => .ok (.create path)
    | some (.library t) => Library.Store.open? path t
    | some (.text s) => if s.isEmpty then .ok (.create path) else .error (.notALibrary path)
    | some (.octets bytes) =>
      if bytes.isEmpty then .ok (.create path) else .error (.notALibrary path)

def save (d : Disk) (s : Library.Store) : Disk := d.write s.path (.library s.saved)

-- What a path leads to. A library is no text.
def source (d : Disk) (path : String) : Settings.Source :=
  if d.isDirectory path then .directory
  else
    match d.file? path with
    | none => .nothing
    | some (.text s) => .file (s.toUTF8.toList.map (·.toNat))
    | some (.octets bytes) => .file bytes
    | some (.library _) => .file [0xFF]

-- Where written names lead from a path on, step by step through directories. An empty name and a
-- dot stay where they are.
def walk? (d : Disk) (p : Path) : List String → Option Path
  | [] => some p
  | name :: rest =>
    if !d.isDirectory p.text then none
    else if name = "" || name = "." then d.walk? p rest
    else d.walk? (p.follow [name]) rest

-- The most octets of a written path.
def longestPath : Nat := 4095

-- What a written path leads to, from a directory on if it does not start with a slash.
def sourceFrom (d : Disk) (directory : Path) (path : String) : Settings.Source :=
  if path.isEmpty || longestPath < path.utf8ByteSize then .nothing
  else
    match d.walk? (if Path.isAbsolute path then [] else directory) (path.splitOn "/") with
    | some p => d.source p.text
    | none => .nothing

def ancestors (p : Path) : List Path := (List.range p.length).map fun n => p.take (n + 1)

def makeDirectory (d : Disk) (p : Path) : Except DirectoryFault Disk :=
  if (d.file? p.text).isSome then .error .isFile
  else if (ancestors p).any fun a => (d.file? a.text).isSome then .error .inFile
  else
    let missing := ((ancestors p).map Path.text).filter fun a => !d.isDirectory a
    .ok { d with directories := d.directories ++ missing }

def removeDirectory (d : Disk) (p : Path) : Disk :=
  let isInside (path : String) : Bool := (p.text ++ "/").isPrefixOf path
  if d.isDirectory p.text then
    { files := d.files.filter (!isInside ·.1)
      directories := d.directories.filter fun a => a ≠ p.text && !isInside a }
  else d

-- The library as its file has it, unless it has changes of its own.
def refresh (d : Disk) (s : Library.Store) : Library.Store :=
  match d.file? s.path with
  | some (.library t) => if s.tables = s.saved then { s with saved := t, tables := t } else s
  | _ => s

end Disk

end LabelPlaylists.Simulation
