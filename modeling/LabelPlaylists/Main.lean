import LabelPlaylists.CommandLine.Run
import LabelPlaylists.Library.Saved
import LabelPlaylists.Log.Journal
import Std.Time.DateTime.Timestamp

/-!
The command line program. Requests are answered by the machine it runs on: its files, environment,
terminal and clock. A library is kept in a file of JSON. Spotify is out of reach here, so every call
and every grant fails as one that could not be sent.
-/

namespace LabelPlaylists.Main

structure LogFiles where
  verbose : Bool
  handle : Log.Sink → Option IO.FS.Handle

structure Machine where
  base : Path.Base
  session : Option Session := none
  library : Option Library.Store := none
  log : Option LogFiles := none

def now : IO Moment := do
  let t ← Std.Time.Timestamp.now
  return .ofUnix (t.toNanosecondsSinceUnixEpoch.toInt / 1000)

/-! ## Files -/

-- What a path leads to; an empty one leads nowhere.
def source (path : String) : IO Settings.Source := do
  if path.isEmpty then return .nothing
  let place := (← IO.currentDir) / path
  if ← place.isDir then return .directory
  if !(← place.pathExists) then return .nothing
  return .file ((← IO.FS.readBinFile place).toList.map (·.toNat))

def makeDirectory (p : Path) : IO (Except DirectoryFault Unit) := do
  try
    IO.FS.createDirAll p.text
    return .ok ()
  catch _ =>
    match ← source p.text with
    | .file _ => return .error .isFile
    | _ => return .error .inFile

def save (s : Library.Store) : IO Unit := IO.FS.writeFile s.path (s.saved.saved.text ++ "\n")

def tables? (octets : List Nat) : Option Library.Tables := do
  let text ← Text.Utf8.strict? 0 octets
  Library.Tables.ofSaved? (← Json.read? (String.ofList text))

-- The library at a path. An empty file, or none, becomes a new library.
def store (path : String) : IO (Except Library.OpenFailure Library.Store) := do
  match ← source path with
  | .nothing => return .ok (.create path)
  | .directory => return .error (.notAFile path)
  | .file octets =>
    if octets.isEmpty then return .ok (.create path)
    match tables? octets with
    | some t => return Library.Store.open? path t
    | none => return .error (.notALibrary path)

def openLibrary (p : Path) (m : Machine) : IO (Except Failure Unit × Machine) := do
  match ← makeDirectory p.parent with
  | .error f => return (.error (.directory f), m)
  | .ok () =>
    match ← store p.text with
    | .error f => return (.error (.opening f), m)
    | .ok s =>
      save s
      return (.ok (), { m with library := some s })

/-! ## Log -/

def openLog (directory : Path) (verbose : Bool) (m : Machine) :
    IO (Except DirectoryFault Unit × Machine) := do
  match ← makeDirectory directory with
  | .error f => return (.error f, m)
  | .ok () =>
    let stamp := ((← now).toSecond.textWith "_").replace ":" "-"
    let file (name : String) : IO IO.FS.Handle :=
      IO.FS.Handle.mk ((directory ++ [name ++ "_" ++ stamp ++ ".log"]).text) .write
    let full ← file "log_full"
    let errors ← file "log_errors"
    let report ← file "criteria_failures"
    let handle
      | .console => none
      | .full => some full
      | .errors => some errors
      | .report => some report
    return (.ok (), { m with log := some { verbose, handle } })

def log (r : Log.Record) (files : LogFiles) : IO Unit := do
  let journal := ({ verbose := files.verbose } : Log.Journal).write r
  let time := (← now).toSecond.textWith " "
  for sink in journal.sinks do
    let text := journal.text time sink
    match files.handle sink with
    | none => (← IO.getStderr).putStr text
    | some file =>
      file.putStr text
      file.flush

/-! ## Terminal -/

-- Asks for a line until one is given that is not empty.
partial def prompt (s : String) : IO (Option String) := do
  let out ← IO.getStdout
  out.putStr (s ++ ": ")
  out.flush
  let line ← (← IO.getStdin).getLine
  if line.isEmpty then
    out.putStr "\n"
    return none
  let answer := line.toList.filter fun c => c ≠ '\r' && c ≠ '\n'
  if answer.isEmpty then prompt s else return some (String.ofList answer)

def secret : IO String := do
  let octets ← IO.getRandomBytes 16
  return String.ofList (octets.toList.flatMap fun b => Text.hex 2 b.toNat)

/-! ## Requests -/

def outOfReach : String := "Spotify is out of reach"

def reply (r : Request) (m : Machine) : IO (r.Reply × Machine) :=
  match r with
  | .library c => do
    match m.library with
    | none => return (.error (.outOfOrder "No library is open"), m)
    | some s =>
      let (found, after) := s.perform (← now) c
      if after.changes ≠ s.changes then save after
      return (found, { m with library := some after })
  | .call .. => return (.error (.unreachable outOfReach), m)
  | .grant _ => return (.error outOfReach, m)
  | .now => return (some (← now), m)
  | .log r => do
    m.log.forM (log r)
    return ((), m)
  | .session => return (m.session, m)
  | .setSession s => return ((), { m with session := some s })
  | .print s => do
    IO.println s
    return ((), m)
  | .complain s => do
    IO.eprintln s
    return ((), m)
  | .prompt s => return (← prompt s, m)
  | .secret => return (← secret, m)
  | .source path => return (← source path, m)
  | .settings path => do
    let place := path.getD (m.base.directory ++ ["config.yaml"]).text
    let environment ← Settings.overriding.filterMapM fun (name, _) =>
      return (← IO.getEnv name).map fun value => (name, value)
    return (Settings.load m.base environment place path.isSome (← source place), m)
  | .useSettings _ => return ((), m)
  | .openLog directory verbose => openLog directory verbose m
  | .closeLog => return ((), { m with log := none })
  | .openLibrary p => openLibrary p m
  | .closeLibrary => return ((), { m with library := none })

def execute : Program α → Machine → IO (Except Failure α)
  | .done a, _ => return .ok a
  | .fail e, _ => return .error e
  | .ask r next, m => do
    let (found, m) ← reply r m
    execute (next found) m

def machine : IO Machine := do
  let directory := Path.names (← IO.currentDir).toString
  let users ← try IO.FS.readFile "/etc/passwd" catch _ => pure ""
  let home := Path.names ((← IO.getEnv "HOME").getD "/")
  return { base := { directory, home, homes := Path.homesOf users } }

end LabelPlaylists.Main

-- Runs a command line; the exit code says how it went.
def main (words : List String) : IO UInt32 := do
  let start ← LabelPlaylists.Main.machine
  match ← LabelPlaylists.Main.execute (LabelPlaylists.CommandLine.run words) start with
  | .ok code => return code.toNat.toUInt32
  | .error f =>
    let (message, code) := LabelPlaylists.CommandLine.farewell f
    IO.eprintln message
    return code.toNat.toUInt32
