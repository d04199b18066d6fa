import LabelPlaylists.Account.Tokens
import LabelPlaylists.Playlist.Pieces
import LabelPlaylists.Text.Quoted

/-!
Calls of Spotify with the tokens of the session. Each call first makes sure of a valid token, is made
once, and its answer must have the expected shape. Artists are looked up fifty at a time.
-/

namespace LabelPlaylists.Account

open Spotify (Call Schema)

namespace Service

def logger : String := "playlist_gen.spotify.client"

def logTrouble : Spotify.Trouble → Program Unit
  | .refused status message .. =>
    Program.log .error logger ("Spotify API error " ++ toString status ++ ": " ++ message)
  | .unreachable text => Program.log .error logger ("Spotify API request failed: " ++ text)
  | .other _ => .done ()
  | .interrupted => .done ()

def execute (token : String) (c : Call) (schema : Schema α) : Program α :=
  .ask (.call token c) fun
    | .error trouble => do
      logTrouble trouble
      .fail (.ofTrouble trouble)
    | .ok body =>
      match schema.read body with
      | .ok a => .done a
      | .error faults => do
        Program.log .error logger
          ("Unexpected " ++ schema.name ++ " body from Spotify: " ++ Spotify.faultsText faults)
        .fail (.unexpectedBody schema.name faults)

def call (c : Call) (schema : Schema α) : Program α := do
  let token ← validToken
  execute token c schema

def debug (message : String) : Program Unit := Program.log .debug logger message

def profile : Program Spotify.Profile := call .profile .profile

def savedTracks (offset limit : Int) : Program Spotify.SavedTracks := do
  debug ("GET /me/tracks offset=" ++ toString offset ++ " limit=" ++ toString limit)
  call (.savedTracks limit offset) .savedTracks

-- The number of artists that can be looked up at once, less one.
def moreArtists : Nat := 49

def artistsOf : List (List String) → Program (List Spotify.Artist)
  | [] => .done []
  | ids :: rest => do
    debug ("GET /artists (" ++ toString ids.length ++ " ids)")
    let found ← call (.artists ids) .artists
    let others ← artistsOf rest
    return found.artists ++ others

def artists (ids : List String) : Program (List Spotify.Artist) := artistsOf (pieces moreArtists ids)

def createPlaylist (name description : String) (isPublic : Bool) :
    Program Spotify.CreatedPlaylist := do
  let s ← Program.session
  debug ("POST /users/" ++ s.spotifyId ++ "/playlists name=" ++ Text.quoted name)
  call (.createPlaylist s.spotifyId name isPublic description) .createdPlaylist

def itemsMessage (method playlist : String) (uris : List String) : String :=
  method ++ " /playlists/" ++ playlist ++ "/tracks (" ++ toString uris.length ++ " uris)"

def replaceItems (playlist : String) (uris : List String) : Program Spotify.Snapshot := do
  debug (itemsMessage "PUT" playlist uris)
  call (.replaceItems playlist uris) .snapshot

def addItems (playlist : String) (uris : List String) : Program Spotify.Snapshot := do
  debug (itemsMessage "POST" playlist uris)
  call (.addItems playlist uris) .snapshot

def removeItems (playlist : String) (uris : List String) : Program Spotify.Snapshot := do
  debug (itemsMessage "DELETE" playlist uris)
  call (.removeItems playlist uris) .snapshot

end Service

end LabelPlaylists.Account
