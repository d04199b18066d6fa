import LabelPlaylists.Spotify.Schema

/-!
The bodies that Spotify answers with, reduced to the fields in use.
-/

namespace LabelPlaylists.Spotify

-- An access token, its lifetime in seconds, and possibly a new refresh token.
structure Grant where
  accessToken : String
  expiresIn : Int
  refreshToken : Option String
deriving DecidableEq, Repr

structure Image where
  url : String
deriving DecidableEq, Repr

structure Profile where
  id : String
  images : List Image
deriving DecidableEq, Repr

structure ArtistRef where
  id : String
deriving DecidableEq, Repr

structure Album where
  id : String
  name : String
  releaseDate : String
  images : List Image
deriving DecidableEq, Repr

structure Track where
  id : String
  name : String
  explicit : Bool
  album : Album
  artists : List ArtistRef
deriving DecidableEq, Repr

structure SavedTrack where
  addedAt : String
  track : Track
deriving DecidableEq, Repr

structure SavedTracks where
  items : List SavedTrack
deriving DecidableEq, Repr

structure Artist where
  id : String
  name : String
  genres : List String
deriving DecidableEq, Repr

structure Artists where
  artists : List Artist
deriving DecidableEq, Repr

structure CreatedPlaylist where
  id : String
deriving DecidableEq, Repr

structure Snapshot where
  snapshotId : String
deriving DecidableEq, Repr

open Reader

namespace Reader

def grant : Reader Grant :=
  object <| map (fun (a, e, r) => ⟨a, e, r⟩) <|
    both (field "access_token" text) <| both (field "expires_in" whole)
      (fieldOr "refresh_token" none textOrNull)

def image : Reader Image := object <| map (fun u => ⟨u⟩) (field "url" text)

def profile : Reader Profile :=
  object <| map (fun (i, im) => ⟨i, im⟩) <|
    both (field "id" text) (fieldOr "images" [] (list image))

def artistRef : Reader ArtistRef := object <| map (fun i => ⟨i⟩) (field "id" text)

def album : Reader Album :=
  object <| map (fun (i, n, d, im) => ⟨i, n, d, im⟩) <|
    both (field "id" text) <| both (field "name" text) <|
      both (field "release_date" text) (field "images" (list image))

def track : Reader Track :=
  object <| map (fun (i, n, e, al, ar) => ⟨i, n, e, al, ar⟩) <|
    both (field "id" text) <| both (field "name" text) <| both (field "explicit" flag) <|
      both (field "album" album) (field "artists" (list artistRef))

def savedTrack : Reader SavedTrack :=
  object <| map (fun (d, t) => ⟨d, t⟩) <| both (field "added_at" text) (field "track" track)

def savedTracks : Reader SavedTracks :=
  object <| map (fun xs => ⟨xs⟩) (field "items" (list savedTrack))

def artist : Reader Artist :=
  object <| map (fun (i, n, g) => ⟨i, n, g⟩) <|
    both (field "id" text) <| both (field "name" text) (field "genres" (list text))

def artists : Reader Artists := object <| map (fun xs => ⟨xs⟩) (field "artists" (list artist))

def createdPlaylist : Reader CreatedPlaylist := object <| map (fun i => ⟨i⟩) (field "id" text)

def snapshot : Reader Snapshot := object <| map (fun i => ⟨i⟩) (field "snapshot_id" text)

end Reader

namespace Schema

def grant : Schema Grant := ⟨"TokenResponse", Reader.grant⟩
def image : Schema Image := ⟨"ImageObject", Reader.image⟩
def profile : Schema Profile := ⟨"ProfileResponse", Reader.profile⟩
def artistRef : Schema ArtistRef := ⟨"SimplifiedArtist", Reader.artistRef⟩
def album : Schema Album := ⟨"AlbumObject", Reader.album⟩
def track : Schema Track := ⟨"TrackObject", Reader.track⟩
def savedTrack : Schema SavedTrack := ⟨"SavedTrackObject", Reader.savedTrack⟩
def savedTracks : Schema SavedTracks := ⟨"SavedTracksResponse", Reader.savedTracks⟩
def artist : Schema Artist := ⟨"ArtistObject", Reader.artist⟩
def artists : Schema Artists := ⟨"ArtistsResponse", Reader.artists⟩
def createdPlaylist : Schema CreatedPlaylist := ⟨"CreatePlaylistResponse", Reader.createdPlaylist⟩
def snapshot : Schema Snapshot := ⟨"SnapshotResponse", Reader.snapshot⟩

end Schema

end LabelPlaylists.Spotify
