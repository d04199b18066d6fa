import LabelPlaylists.Text.Quoted

/-!
What is wrong with a command line, and how it is said.
-/

namespace LabelPlaylists.CommandLine

inductive Usage where
  | noSuchOption (name : String) (similar : List String)
  | noSuchCommand (name : String) (similar : List String)
  | missingCommand
  | missingArgument (name : String)
  | extraArguments (given : List String)
  | missingValue (option : String)
  | needlessValue (option : String)
  | badValue (place reason : String)
  | nothingGiven
deriving DecidableEq, Repr

namespace Usage

def suggestion : List String → String
  | [] => ""
  | [name] => " Did you mean " ++ Text.quoted name ++ "?"
  | names => " (Did you mean one of: " ++ ", ".intercalate (names.map Text.quoted) ++ "?)"

def message : Usage → String
  | noSuchOption name similar => "No such option " ++ Text.quoted name ++ "." ++ suggestion similar
  | noSuchCommand name similar => "No such command " ++ Text.quoted name ++ "." ++ suggestion similar
  | missingCommand => "Missing command."
  | missingArgument name => "Missing argument '" ++ name ++ "'."
  | extraArguments given =>
    "Got unexpected extra " ++ (if given.length = 1 then "argument" else "arguments") ++ " ("
      ++ " ".intercalate given ++ ")"
  | missingValue option => "Option " ++ Text.quoted option ++ " requires an argument."
  | needlessValue option => "Option " ++ Text.quoted option ++ " does not take a value."
  | badValue place reason => "Invalid value for " ++ place ++ ": " ++ reason
  | nothingGiven => "Usage: playlist-gen [OPTIONS] COMMAND [ARGS]..."

end Usage

end LabelPlaylists.CommandLine
