import LabelPlaylists.CommandLine.Invocation
import LabelPlaylists.Criteria.Error
import LabelPlaylists.Criteria.Sql
import LabelPlaylists.Program.Basic

/-!
The commands about labels and tracks, for the session in use. A command that goes through several
tracks stops at the first one that the user does not have; what it did before stays done.
-/

namespace LabelPlaylists.CommandLine

def requireValid (criteria : String) : Program Unit :=
  match Criteria.problem? criteria with
  | none => .done ()
  | some e => .fail (.usage (.badValue "criteria" (e.describe criteria)))

def label (user : Int) (name : String) : Program Library.Label := do
  match ← Program.library (.labelNamed (.integer user) (.text name)) with
  | some l => return l
  | none => .fail (.usage (.badValue "NAME" ("No label named '" ++ name ++ "'")))

def kindName (criteria : Option String) : String := if criteria.isSome then "smart" else "static"

def listLabels : Program Unit := do
  let s ← Program.session
  let labels ← Program.library (.labels (.integer s.userId))
  if labels.isEmpty then Program.print "No labels"
  else
    Program.print <| "\n".intercalate <| labels.map fun l =>
      match l.criteria with
      | none => l.name ++ "  (static)"
      | some criteria => l.name ++ "  (smart: " ++ criteria ++ ")"

def createLabel (name : String) (criteria : Option String) : Program Unit := do
  let s ← Program.session
  match ← Program.library (.labelNamed (.integer s.userId) (.text name)) with
  | some _ => .fail (.usage (.badValue "NAME" ("Label '" ++ name ++ "' already exists")))
  | none =>
    let _ ← Program.library (.addLabel (.integer s.userId) (.text name) (.ofOption criteria))
    Program.print ("Created " ++ kindName criteria ++ " label '" ++ name ++ "'")

def setCriteria (name : String) (criteria : Option String) : Program Unit := do
  let s ← Program.session
  let l ← label s.userId name
  Program.library (.setCriteria (.integer l.id) (.ofOption criteria))
  Program.print ("Label '" ++ name ++ "' is now " ++ kindName criteria)

def storedTrack? (user : Int) (id : String) : Program (Option Library.TrackView) :=
  Program.library (.trackNamed (.integer user) (.text id))

def addEach (user label : Int) : List String → Program Unit
  | [] => .done ()
  | id :: rest => do
    match ← storedTrack? user id with
    | none => .fail (.usage (.badValue "TRACK_IDS" ("No stored track '" ++ id ++ "'")))
    | some v =>
      Program.library (.addMembership (.integer v.track.id) (.integer label))
      addEach user label rest

def addTracks (name : String) (ids : List String) : Program Unit := do
  let s ← Program.session
  let l ← label s.userId name
  addEach s.userId l.id ids
  Program.print ("Added " ++ toString ids.length ++ " track(s) to '" ++ name ++ "'")

-- Takes a label from tracks; those that the user does not have are passed over.
def removeEach (user label : Int) : List String → Program Unit
  | [] => .done ()
  | id :: rest => do
    match ← storedTrack? user id with
    | none => removeEach user label rest
    | some v =>
      Program.library (.removeMembership (.integer v.track.id) (.integer label))
      removeEach user label rest

def removeTracks (name : String) (ids : List String) : Program Unit := do
  let s ← Program.session
  let l ← label s.userId name
  removeEach s.userId l.id ids
  Program.print ("Removed " ++ toString ids.length ++ " track(s) from '" ++ name ++ "'")

/-! ## Tracks -/

-- A track on a line: its id, the day it was favorited, its artists and its name.
def trackLine (v : Library.TrackView) : String :=
  v.track.spotifyId ++ "  " ++ String.ofList (v.track.addedAt.toList.take 10) ++ "  "
    ++ ", ".intercalate v.artists ++ " - " ++ v.track.name
    ++ (if v.track.explicit then " [E]" else "")

def tracksOfPage (user : Int) (criteria : Option String) (limit page : Int) :
    Program (List Library.TrackView) := do
  let offset := (page - 1) * limit
  match criteria with
  | none => Program.library (.tracks (.integer user) (.integer limit) (.integer offset))
  | some criteria =>
    requireValid criteria
    let filter := (Criteria.compile criteria).toOption.map (·.filter)
    let found ← Program.library (.find (.integer user) filter)
    return (found.drop offset.toNat).take limit.toNat

def listTracks (criteria : Option String) (limit page : Int) : Program Unit := do
  let s ← Program.session
  let tracks ← tracksOfPage s.userId criteria limit page
  if tracks.isEmpty then Program.print "No tracks"
  else Program.print ("\n".intercalate (tracks.map trackLine))

def validate (criteria : String) : Program Int :=
  match Criteria.problem? criteria with
  | none => do
    Program.print "Valid"
    return 0
  | some e => do
    Program.complain (e.describe criteria)
    return 1

end LabelPlaylists.CommandLine
