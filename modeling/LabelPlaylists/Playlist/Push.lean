import LabelPlaylists.Account.Service
import LabelPlaylists.Criteria.Sql
import LabelPlaylists.Program.Parallel

/-!
Pushing labels to playlists. Labels without a playlist get one; then the items of every playlist are
replaced by the tracks of its label, fifty at a time. A playlist is emptied by a placeholder that is
taken away again. A smart label whose criteria fail is reported and pushed as empty.
-/

namespace LabelPlaylists.Playlist

def nameOf (label : String) : String := label ++ " [generated]"

def descriptionOf (label : String) : String := "Tracks labeled \"" ++ label ++ "\" by playlist-gen"

def trackUri (id : String) : String := "spotify:track:" ++ id

-- Stands in an empty playlist for a moment, since a playlist cannot be replaced by nothing.
def placeholderTrack : String := "41MCdlvXOl62B7Kv86Bb1v"

def escape : String := String.singleton '\x1b'

def reset : String := escape ++ "[0m"

def green : String := escape ++ "[32m"

def cyan : String := escape ++ "[36m"

def pushedMessage (label : String) (count : Int) (playlist : String) : String :=
  green ++ "Pushed" ++ reset ++ ": " ++ label ++ " (" ++ toString count ++ " tracks) -> "
    ++ cyan ++ "spotify:playlist:" ++ playlist ++ reset


open Account (Service.createPlaylist Service.replaceItems Service.addItems Service.removeItems)

def logger : String := "playlist_gen.sync.playlists"

structure Summary where
  created : Nat
  synced : Nat
  tracks : Nat
  -- The smart labels whose criteria failed, in alphabetical order.
  failures : List String
deriving DecidableEq, Repr

/-! ## Playlists for labels -/

def shownRow (fields : List (String × Json)) : String := (Json.obj fields).shown

def shownText (s : Option String) : Json := (s.map Json.str).getD .null

def shownLabel (l : Library.Label) : String :=
  shownRow [("id", .int l.id), ("user_id", .int l.userId), ("name", .str l.name),
    ("smart_criteria", shownText l.criteria), ("created_at", .str l.createdAt)]

def shownPlaylist (p : Library.PlaylistView) : String :=
  shownRow [("id", .int p.id), ("spotify_id", .str p.spotifyId), ("label_id", .int p.labelId),
    ("label_name", .str p.labelName), ("smart_criteria", shownText p.criteria)]

-- Creates the playlist of a label and records it at once.
def provideOne (l : Library.Label) : Program String := do
  let created ← Service.createPlaylist (nameOf l.name) (descriptionOf l.name) false
  let s ← Program.session
  let _ ← Program.library (.addPlaylist (.integer s.userId) (.integer l.id) (.text created.id))
  Program.log .debug logger
    ("Created playlist " ++ created.id ++ " for label '" ++ l.name ++ "'")
  return created.id

-- Gives the labels without a playlist one, in the order in which they are arranged.
def provideIn (arrange : List Library.Label → List Library.Label) (workers : Int) :
    Program Nat := do
  let s ← Program.session
  let labels ← Program.library (.labelsWithoutPlaylist (.integer s.userId))
  if labels.isEmpty then return 0
  Program.log .info logger ("Creating " ++ toString labels.length ++ " playlist(s)")
  let created ←
    Program.inParallel workers "Creating playlists" shownLabel provideOne (arrange labels)
  return created.length

def provide (workers : Int) : Program Nat := provideIn id workers

/-! ## Contents -/

abbrev Resolved := List String × Bool

-- Reports failed criteria; the label counts as empty.
def reportFailure (label criteria reason : String) : Program Resolved :=
  .ask (.log (.ofFailure logger ⟨label, criteria, reason⟩)) fun _ => .done ([], true)

def search (userId : Int) (f : Sql.Filter) :
    Program (Except Library.Failure (List Library.TrackView)) :=
  .ask (.library (.find (.integer userId) (some f))) .done

def resolve (labelId : Int) (name : String) (criteria : Option String) : Program Resolved := do
  match criteria with
  | none => return (← Program.library (.labelTracks (.integer labelId)), false)
  | some text =>
    match Criteria.compile text with
    | .error e => do
      Program.log .debug "playlist_gen.criteria.compiler"
        ("Invalid criteria " ++ Text.quoted text ++ ": " ++ e.message)
      reportFailure name text e.message
    | .ok c => do
      let s ← Program.session
      match ← search s.userId c.filter with
      | .ok tracks => return (tracks.map (·.track.spotifyId), false)
      | .error .numberTooLarge => .fail (.library .numberTooLarge)
      | .error e => reportFailure name text e.message

-- The number of items that a request can carry, less one.
def moreItems : Nat := 49

def addPieces (playlist : String) : List (List String) → Program Unit
  | [] => .done ()
  | uris :: rest => do
    let _ ← Service.addItems playlist uris
    addPieces playlist rest

def fill (playlist : String) (tracks : List String) : Program Unit := do
  let placeholder := [trackUri placeholderTrack]
  let uris := if tracks.isEmpty then placeholder else tracks.map trackUri
  match pieces moreItems uris with
  | [] => return
  | first :: rest => do
    let _ ← Service.replaceItems playlist first
    addPieces playlist rest
    if tracks.isEmpty then
      let _ ← Service.removeItems playlist placeholder

def pushOne (p : Library.PlaylistView) : Program (Nat × Bool) := do
  let (tracks, failed) ← resolve p.labelId p.labelName p.criteria
  fill p.spotifyId tracks
  Program.log .info logger (pushedMessage p.labelName tracks.length p.spotifyId)
  return (tracks.length, failed)

-- Pushes all playlists of the user, in the order in which they are arranged.
def pushEachIn (arrange : List Library.PlaylistView → List Library.PlaylistView) (workers : Int) :
    Program (List (Library.PlaylistView × Nat × Bool)) := do
  let s ← Program.session
  let playlists ← Program.library (.playlists (.integer s.userId))
  Program.inParallel workers "Pushing playlists" shownPlaylist pushOne (arrange playlists)

-- The zero of a sum is the one that numerals have.
attribute [local instance (high)] Zero.ofOfNat0

def summary (created : Nat) (pushed : List (Library.PlaylistView × Nat × Bool)) : Summary where
  created
  synced := pushed.length
  tracks := (pushed.map fun (_, count, _) => count).sum
  failures := Library.sorted <| pushed.filterMap fun (p, _, failed) => if failed then some p.labelName else none

-- Workers take labels and playlists up in any order, so a push is given for every arrangement of them.
def pushIn (labels : List Library.Label → List Library.Label)
    (arrange : List Library.PlaylistView → List Library.PlaylistView) (workers : Int) :
    Program Summary := do
  let created ← provideIn labels workers
  let total := summary created (← pushEachIn arrange workers)
  Program.log .info logger
    ("Pushed " ++ toString total.synced ++ " playlist(s) (" ++ toString total.created ++ " created, "
      ++ toString total.tracks ++ " tracks)")
  return total

-- The order in which the library lists them.
def push (workers : Int) : Program Summary := pushIn id id workers

end LabelPlaylists.Playlist
