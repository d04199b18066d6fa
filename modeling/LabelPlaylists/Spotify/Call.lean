import LabelPlaylists.Spotify.Objects

/-!
Requests to Spotify: calls of the service with an access token, and grants that ask the token
endpoint for one.
-/

namespace LabelPlaylists.Spotify

inductive Call where
  | profile
  | savedTracks (limit offset : Int)
  | artists (ids : List String)
  | createPlaylist (user name : String) (isPublic : Bool) (description : String)
  -- Makes the given items the only ones.
  | replaceItems (playlist : String) (uris : List String)
  -- Puts the given items at the end.
  | addItems (playlist : String) (uris : List String)
  -- Takes every occurrence of the given items away.
  | removeItems (playlist : String) (uris : List String)
deriving DecidableEq, Repr

inductive Call.Kind where
  | profile
  | savedTracks
  | artists
  | createPlaylist
  | replaceItems
  | addItems
  | removeItems
deriving DecidableEq, Repr

def Call.kind : Call → Call.Kind
  | profile => .profile
  | savedTracks .. => .savedTracks
  | artists .. => .artists
  | createPlaylist .. => .createPlaylist
  | replaceItems .. => .replaceItems
  | addItems .. => .addItems
  | removeItems .. => .removeItems

inductive Trouble where
  | refused (status : Int) (message : String) (reason : Option String)
      (headers : List (String × String))
  | unreachable (text : String)
  | other (text : String)
  | interrupted
deriving DecidableEq, Repr

inductive Grant.Form where
  -- The first tokens of a user, for the code of a redirect.
  | ofCode (code redirectUri : String)
  -- A new access token, for a refresh token.
  | ofRefresh (token : String)
deriving DecidableEq, Repr

namespace Grant

def tokenEndpoint : String := "https://accounts.spotify.com/api/token"

def Form.kind : Form → String
  | ofCode .. => "authorization_code"
  | ofRefresh _ => "refresh_token"

def Form.fields : Form → List (String × String)
  | ofCode code redirectUri =>
    [("grant_type", "authorization_code"), ("code", code), ("redirect_uri", redirectUri)]
  | ofRefresh token => [("grant_type", "refresh_token"), ("refresh_token", token)]

structure Answer where
  status : Int
  text : String
deriving DecidableEq, Repr

end Grant

end LabelPlaylists.Spotify
