import LabelPlaylists.CommandLine.Arguments

/-!
What a command line asks for: options for all commands, then a command with its own options and
arguments. The commands about labels form a group of their own.
-/

namespace LabelPlaylists.CommandLine

inductive Command where
  | login
  | pull
  | push
  | tracks (criteria : Option String) (limit page : Int)
  | validate (criteria : String)
  | listLabels
  | createLabel (name : String) (criteria : Option String)
  -- Makes a label smart, or static without criteria.
  | setCriteria (name : String) (criteria : Option String)
  | addTracks (name : String) (tracks : List String)
  | removeTracks (name : String) (tracks : List String)
  | message (text : String)
  -- No command at all, found behind options of which one may name a file.
  | unknown (config : Option String) (u : Usage)
deriving DecidableEq, Repr

structure Globals where
  config : Option String
  user : Option String
  verbose : Bool
  shows : Option String
deriving DecidableEq, Repr

def helpForm : OptionForm := { name := "--help", takesValue := false }

def globalForms : List OptionForm :=
  [{ name := "--config" }, { name := "--user" },
    { name := "--verbose", short := some 'v', takesValue := false },
    { name := "--version", takesValue := false }, helpForm]

def version : String := "0.1.0"

def globals (words : List String) : Except Usage (Globals × List String) := do
  if words.isEmpty then .error .nothingGiven
  else
    let g ← Given.ofWords globalForms false words
    let shows := g.order.findSome? fun name =>
      if name = "--version" then some ("playlist-gen, version " ++ version)
      else if name = "--help" then some (Usage.message .nothingGiven)
      else none
    .ok (⟨g.value? "--config", g.value? "--user", g.has "--verbose", shows⟩, g.arguments)

def commandNames : List String := ["login", "pull", "push", "tracks", "validate", "label"]

def labelCommandNames : List String := ["list", "create", "criteria", "add", "remove"]

-- An argument that may be left out. Those that are too many are refused last of all.
def noMore (arguments : List String) (c : Command) : Except Usage Command :=
  if arguments.isEmpty then .ok c else .error (.extraArguments arguments)

def help : Command := .message (Usage.message .nothingGiven)

-- A command with the options of its forms, unless help is asked for.
def command (forms : List OptionForm) (words : List String)
    (read : Given → Except Usage Command) : Except Usage Command := do
  let g ← Given.ofWords (forms ++ [helpForm]) true words
  if g.has "--help" then .ok help else read g

-- The values of the options for numbers, which are looked at in the order they are given in.
def checkNumbers (g : Given) : List String → Except Usage Unit
  | [] => .ok ()
  | name :: rest => do
    if name = "--limit" || name = "--page" then
      let _ ← positive name ((g.value? name).getD "1")
    checkNumbers g rest

def tracksCommand (words : List String) : Except Usage Command :=
  command [{ name := "--criteria" }, { name := "--limit" }, { name := "--page" }] words fun g => do
    checkNumbers g g.order
    let limit ← positive "--limit" ((g.value? "--limit").getD "20")
    let page ← positive "--page" ((g.value? "--page").getD "1")
    noMore g.arguments (.tracks (g.value? "--criteria") limit page)

def withName (place : String) (g : Given) (read : String → List String → Except Usage Command) :
    Except Usage Command :=
  match g.arguments with
  | [] => .error (.missingArgument place)
  | name :: rest => read name rest

def withTracks (make : String → List String → Command) (words : List String) :
    Except Usage Command :=
  command [] words fun g => withName "NAME" g fun name tracks =>
    if tracks.isEmpty then .error (.missingArgument "TRACK_IDS...") else .ok (make name tracks)

def plainCommand (c : Command) (words : List String) : Except Usage Command :=
  command [] words fun g => noMore g.arguments c

-- A name that is no command. One with a sign in front is read as an option once more.
def unknownCommand (name : String) (words : List String) : Except Usage Command := do
  let u := Usage.noSuchCommand name (Text.similar commandNames name)
  if isOption name then
    let (g, _) ← globals words
    .ok (match g.shows with
      | some s => .message s
      | none => .unknown g.config u)
  else .error u

def unknownLabelCommand (name : String) (words : List String) : Except Usage Command := do
  let u := Usage.noSuchCommand name (Text.similar labelCommandNames name)
  if isOption name then
    let g ← Given.ofWords [helpForm] false words
    if g.has "--help" then .ok help else .error u
  else .error u

def labelCommand (words : List String) : Except Usage Command := do
  if words.isEmpty then .error .nothingGiven
  else
    let g ← Given.ofWords [helpForm] false words
    if g.has "--help" then .ok help
    else
      match g.arguments with
      | [] => .error .missingCommand
      | name :: rest =>
        match name with
        | "list" => plainCommand .listLabels rest
        | "create" =>
          command [{ name := "--criteria" }] rest fun g => withName "NAME" g fun name more =>
            noMore more (.createLabel name (g.value? "--criteria"))
        | "criteria" =>
          command [] rest fun g => withName "NAME" g fun name more =>
            noMore more.tail (.setCriteria name more.head?)
        | "add" => withTracks .addTracks rest
        | "remove" => withTracks .removeTracks rest
        | _ => unknownLabelCommand name (name :: rest)

def Command.ofWords (words : List String) : Except Usage Command :=
  match words with
  | [] => .error .missingCommand
  | name :: rest =>
    match name with
    | "login" => plainCommand .login rest
    | "pull" => plainCommand .pull rest
    | "push" => plainCommand .push rest
    | "tracks" => tracksCommand rest
    | "validate" =>
      command [] rest fun g => withName "CRITERIA" g fun criteria more =>
        noMore more (.validate criteria)
    | "label" => labelCommand rest
    | _ => unknownCommand name (name :: rest)

end LabelPlaylists.CommandLine
