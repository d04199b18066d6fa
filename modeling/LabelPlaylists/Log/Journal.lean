import LabelPlaylists.Log.Record

/-!
Where log records go: the console, a full log, a log of errors, and a report of failed criteria.
The console shows records from INFO up, or from DEBUG up if it is verbose; the log of errors keeps
those from ERROR up. Two loggers that talk a lot, with all below them, are heard from WARNING up
only. After the journal is closed nothing goes anywhere.
-/

namespace LabelPlaylists.Log

inductive Sink where
  | console
  | full
  | errors
  | report
deriving DecidableEq, Repr

-- Loggers heard from WARNING up only.
def chattyLoggers : List String := ["urllib3", "spotipy"]

def threshold (logger : String) : Level :=
  if chattyLoggers.any fun c => logger = c || (c ++ ".").toList.isPrefixOf logger.toList then
    .warning
  else .debug

def Record.isHeard (r : Record) : Bool := threshold r.logger ≤ r.level

def Sink.takes (verbose : Bool) (r : Record) : Sink → Bool
  | console => (if verbose then Level.debug else Level.info) ≤ r.level
  | full => Level.debug ≤ r.level
  | errors => Level.debug ≤ r.level && Level.error ≤ r.level
  | report => r.failure.isSome

structure Journal where
  verbose : Bool
  isOpen : Bool := true
  records : Sink → List Record := fun _ => []

namespace Journal

def sinks (j : Journal) : List Sink :=
  if j.isOpen then [.console, .full, .errors, .report] else []

def write (j : Journal) (r : Record) : Journal :=
  if j.isOpen && r.isHeard then
    { j with records := fun s =>
        if s.takes j.verbose r then j.records s ++ [r] else j.records s }
  else j

def close (j : Journal) : Journal := { j with isOpen := false }

end Journal

/-! ## Text -/

def escape : String := String.singleton '\x1b'

def Level.colour (l : Level) : String :=
  if l = debug then escape ++ "[34m"
  else if l = info then escape ++ "[32m"
  else if l = warning then escape ++ "[33m"
  else if l = error then escape ++ "[31m"
  else if l = critical then escape ++ "[1m" ++ escape ++ "[31m"
  else escape ++ "[37m"

namespace Record

def consoleLine (r : Record) : String :=
  r.level.colour ++ r.level.name ++ escape ++ "[0m: " ++ r.message ++ "\n"

-- A line of a log file; the level fills at least eight columns.
def fileLine (time : String) (r : Record) : String :=
  let level := r.level.name
  time ++ " | " ++ level ++ String.ofList (List.replicate (8 - level.length) ' ') ++ " | "
    ++ (if r.logger = "" then "root" else r.logger) ++ " | " ++ r.message ++ "\n"

-- The block of a failure report, nothing for other records.
def reportBlock (r : Record) : String :=
  match r.failure with
  | none => ""
  | some f =>
    "Label: " ++ f.label ++ "\nCriteria: " ++ f.criteria ++ "\nReason: " ++ f.reason ++ "\n\n"

end Record

-- The text of an output; `time` is written in front of each line of a log file.
def Journal.text (time : String) (j : Journal) (s : Sink) : String :=
  String.join <| (j.records s).map fun r =>
    match s with
    | .console => r.consoleLine
    | .full | .errors => r.fileLine time
    | .report => r.reportBlock

end LabelPlaylists.Log
