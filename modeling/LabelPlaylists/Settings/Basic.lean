import LabelPlaylists.Settings.Path
import LabelPlaylists.Yaml.Value

/-!
The settings of a user: the credentials of the application at Spotify, where the library and the logs
are kept, and how hard a command may work. What may be wrong with them is a list of causes, each with
its message.
-/

namespace LabelPlaylists

open Yaml (Value)

structure Settings where
  clientId : String
  clientSecret : String
  redirectUri : String
  library : Path
  maxWorkers : Int
  requestTimeout : Int
  logs : Path
deriving DecidableEq, Repr, Inhabited

namespace Settings

structure Field where
  sectionName : String
  name : String
deriving DecidableEq, Repr

def Field.text (f : Field) : String := f.sectionName ++ "." ++ f.name

inductive Problem where
  | noFile (path : String)
  | isDirectory (path : String)
  | notText
  -- The file is no YAML document, or has a value that cannot be.
  | yaml (path : String) (f : Yaml.Fault)
  | notAMapping (path : String)
  | badSection (name : String)
  -- Not a text, or nothing but blanks.
  | badText (f : Field)
  -- Not a whole number above zero.
  | badNumber (f : Field) (value : Value)
  | badPath (f : Path.Fault)
deriving Repr

namespace Problem

def directoryText (path : String) : String :=
  "[Errno 21] Is a directory: '" ++ path ++ "'"

def message : Problem → String
  | noFile path => "Configuration file not found: " ++ path
  | isDirectory path => "Failed to read configuration file: " ++ directoryText path
  | notText => "Configuration file is not UTF-8 text"
  | yaml .. => "Invalid YAML syntax in configuration file: not a single YAML document"
  | notAMapping _ => "Configuration file must contain a YAML dictionary"
  | badSection name => "Section '" ++ name ++ "' must be a dictionary"
  | badText f => "'" ++ f.text ++ "' must be a non-empty string"
  | badNumber f _ => "'" ++ f.text ++ "' must be a positive integer"
  | badPath (.unknownUser _) => "Could not determine home directory."
  | badPath .nullCharacter => "A path holds a null character."

-- Told to the user as a problem of the configuration. The others break the program off.
def isReported : Problem → Bool
  | notText | badPath _ => false
  | yaml _ f => f = .malformed
  | _ => true

end Problem

end Settings

end LabelPlaylists
