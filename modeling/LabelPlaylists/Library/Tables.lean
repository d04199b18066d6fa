/-!
The library of favorites: users with their tracks, the albums and artists that the tracks refer to,
labels, which tracks carry which label, and the playlists made from labels. Rows are kept in the
order in which they were added. Users, tracks, labels and playlists are numbered, and a number that
has been given out is never given out again.
-/

namespace LabelPlaylists.Library

structure User where
  id : Int
  spotifyId : String
  avatarUrl : Option String
  accessToken : String
  refreshToken : String
  expiresAt : String
  createdAt : String
  updatedAt : String
deriving DecidableEq, Repr

-- An album; albums without an id can be stored, but nothing can refer to them.
structure Album where
  id : Option String
  name : String
  thumbnailUrl : Option String
  releasedOn : Option String
deriving DecidableEq, Repr

structure Artist where
  id : Option String
  name : String
  genres : String
deriving DecidableEq, Repr

structure Track where
  id : Int
  userId : Int
  spotifyId : String
  name : String
  albumId : String
  addedAt : String
  explicit : Bool
deriving DecidableEq, Repr

structure Credit where
  trackId : Int
  artistId : String
deriving DecidableEq, Repr

-- A label, static if it has no criteria and smart if it has.
structure Label where
  id : Int
  userId : Int
  name : String
  criteria : Option String
  createdAt : String
deriving DecidableEq, Repr

structure Membership where
  trackId : Int
  labelId : Int
deriving DecidableEq, Repr

structure Playlist where
  id : Int
  userId : Int
  labelId : Int
  spotifyId : String
deriving DecidableEq, Repr

structure Tables where
  -- The version of the file's layout, unless someone has removed it.
  version : Option Int := none
  users : List User := []
  albums : List Album := []
  artists : List Artist := []
  tracks : List Track := []
  credits : List Credit := []
  labels : List Label := []
  memberships : List Membership := []
  playlists : List Playlist := []
  -- The last number given to a user, used or not.
  lastUser : Int := 0
  lastTrack : Int := 0
  lastLabel : Int := 0
  lastPlaylist : Int := 0
deriving DecidableEq, Repr, Inhabited

namespace Tables

def user? (t : Tables) (id : Int) : Option User := t.users.find? (·.id = id)

def userNamed? (t : Tables) (spotifyId : String) : Option User :=
  t.users.find? (·.spotifyId = spotifyId)

def album? (t : Tables) (id : String) : Option Album := t.albums.find? (·.id = some id)

def artist? (t : Tables) (id : String) : Option Artist := t.artists.find? (·.id = some id)

def track? (t : Tables) (id : Int) : Option Track := t.tracks.find? (·.id = id)

def trackOf? (t : Tables) (userId : Int) (spotifyId : String) : Option Track :=
  t.tracks.find? fun r => r.userId = userId ∧ r.spotifyId = spotifyId

def label? (t : Tables) (id : Int) : Option Label := t.labels.find? (·.id = id)

def labelNamed? (t : Tables) (userId : Int) (name : String) : Option Label :=
  t.labels.find? fun r => r.userId = userId ∧ r.name = name

def playlistOf? (t : Tables) (labelId : Int) : Option Playlist :=
  t.playlists.find? (·.labelId = labelId)

end Tables

end LabelPlaylists.Library
