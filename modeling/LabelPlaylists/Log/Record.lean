/-!
Log records. A record that reports failed criteria carries the label, its criteria and the reason.
-/

namespace LabelPlaylists.Log

-- How much a record matters; the named levels are ten apart.
abbrev Level := Int

namespace Level

def debug : Level := 10

def info : Level := 20

def warning : Level := 30

def error : Level := 40

def critical : Level := 50

def name (l : Level) : String :=
  if l = debug then "DEBUG"
  else if l = info then "INFO"
  else if l = warning then "WARNING"
  else if l = error then "ERROR"
  else if l = critical then "CRITICAL"
  else "Level " ++ toString l

end Level

structure CriteriaFailure where
  label : String
  criteria : String
  reason : String
deriving DecidableEq, Repr

structure Record where
  level : Level
  logger : String
  message : String
  failure : Option CriteriaFailure := none
deriving DecidableEq, Repr

namespace Record

def ofFailure (logger : String) (f : CriteriaFailure) : Record where
  level := .error
  logger := logger
  message := "Skipping smart label '" ++ f.label ++ "': " ++ f.reason
  failure := some f

def firstLine (r : Record) : String := String.ofList (r.message.toList.takeWhile (· ≠ '\n'))

end Record

end LabelPlaylists.Log
