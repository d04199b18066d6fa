import LabelPlaylists.Sql.Datum

/-!
Why an operation on the library fails, and how it is said.
-/

namespace LabelPlaylists.Library

inductive Fault where
  | missing (column : String)
  | notUnique (columns : String)
  | danglingReference
  | notANumber
  -- A value of a kind that the store does not take, by its place among the values.
  | unsupported (place : Nat) (kind : String)
  | tooHigh
  | tooDeep
deriving DecidableEq, Repr

def Fault.message : Fault → String
  | missing column => "NOT NULL constraint failed: " ++ column
  | notUnique columns => "UNIQUE constraint failed: " ++ columns
  | danglingReference => "FOREIGN KEY constraint failed"
  | notANumber => "datatype mismatch"
  | unsupported place kind =>
    "Error binding parameter " ++ toString place ++ ": type '" ++ kind ++ "' is not supported"
  | tooHigh => "Expression tree is too large (maximum depth 1000)"
  | tooDeep => "parser stack overflow"

inductive Failure where
  | fault (f : Fault)
  | noSuchLabel (id : Datum)
  | smartLabel (id : Datum)
  | outOfOrder (reason : String)
  -- A number that the store cannot hold; nothing is undone.
  | numberTooLarge
  | timeOutOfRange
deriving DecidableEq, Repr

def shown : Datum → String
  | .null => "None"
  | .flag b => if b then "True" else "False"
  | .integer n => toString n
  | .real x => x.text
  | .text s => s
  | .foreign kind => kind

def Failure.message : Failure → String
  | fault f => "Database operation failed: " ++ f.message
  | noSuchLabel id => "Label not found: " ++ shown id
  | smartLabel _ => "Smart labels compute their tracks from criteria and cannot hold tracks"
  | outOfOrder reason => reason
  | numberTooLarge => "number too large"
  | timeOutOfRange => "date value out of range"

inductive OpenFailure where
  | noDirectory (directory : String)
  | notALibrary (path : String)
  | notAFile (path : String)
  | wrongVersion (actual : Int)
deriving DecidableEq, Repr

def layoutVersion : Int := 1

def OpenFailure.message : OpenFailure → String
  | noDirectory directory => "Parent directory does not exist: " ++ directory
  | notALibrary _ => "Failed to initialize database: file is not a database"
  | notAFile _ => "Failed to initialize database: unable to open database file"
  | wrongVersion actual =>
    "Database version mismatch: expected " ++ toString layoutVersion ++ ", got " ++ toString actual

end LabelPlaylists.Library
