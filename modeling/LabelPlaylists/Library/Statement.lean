import LabelPlaylists.Library.Fault
import LabelPlaylists.Library.Tables

/-!
Single changes of the tables. Each checks in turn that its columns have values, that what must be
unique is, and that the rows it refers to exist; a change that is refused changes nothing. A change
comes with the number of rows it has touched.
-/

namespace LabelPlaylists.Library

-- The tables after a change, and the number of rows it has touched.
abbrev Change := Except Fault (Tables × Nat)

def required (column : String) (d : Datum) : Except Fault String :=
  match d.text? with
  | some s => .ok s
  | none => .error (.missing column)

-- A column of references must have a value; one that is no number refers to nothing.
def requiredReference (column : String) (d : Datum) : Except Fault (Option Int) :=
  if d = .null then .error (.missing column) else .ok d.whole?

structure UserValues where
  spotifyId : Datum
  avatarUrl : Datum
  accessToken : Datum
  refreshToken : Datum
deriving DecidableEq, Repr

structure AlbumValues where
  id : Datum
  name : Datum
  thumbnailUrl : Datum
  releasedOn : Datum
deriving DecidableEq, Repr

structure ArtistValues where
  id : Datum
  name : Datum
  genres : String
deriving DecidableEq, Repr

structure TrackValues where
  spotifyId : Datum
  name : Datum
  albumId : Datum
  addedAt : Datum
  explicit : Bool
deriving DecidableEq, Repr

namespace Tables

-- Adds a user, or replaces the tokens and the picture of the one with the same Spotify id. Both
-- take a number.
def putUser (t : Tables) (v : UserValues) (expiresAt now : String) : Change := do
  let spotifyId ← required "users.spotify_id" v.spotifyId
  let accessToken ← required "users.access_token" v.accessToken
  let refreshToken ← required "users.refresh_token" v.refreshToken
  let avatarUrl := v.avatarUrl.text?
  let id := t.lastUser + 1
  let users :=
    if (t.userNamed? spotifyId).isSome then
      t.users.map fun u =>
        if u.spotifyId = spotifyId then
          { u with avatarUrl, accessToken, refreshToken, expiresAt, updatedAt := now }
        else u
    else
      t.users ++ [{ id, spotifyId, avatarUrl, accessToken, refreshToken, expiresAt,
                    createdAt := now, updatedAt := now }]
  .ok ({ t with users, lastUser := id }, 1)

-- Replaces the access token of a user, and the refresh token if there is a new one.
def setTokens (t : Tables) (user accessToken : Datum) (expiresAt : String) (refreshToken : Datum)
    (now : String) : Change := do
  match user.whole?.bind t.user? with
  | none => .ok (t, 0)
  | some old =>
    let accessToken ← required "users.access_token" accessToken
    let users := t.users.map fun u =>
      if u.id = old.id then
        { u with accessToken, expiresAt, updatedAt := now,
                 refreshToken := refreshToken.text?.getD u.refreshToken }
      else u
    .ok ({ t with users }, 1)

-- Adds an album; one without a name or with a known id is passed over.
def addAlbum (t : Tables) (v : AlbumValues) : Tables × Nat :=
  match v.name.text?, v.id.text? with
  | none, _ => (t, 0)
  | some name, id =>
    if id.isSome ∧ t.albums.any (·.id = id) then (t, 0)
    else
      ({ t with albums := t.albums ++ [{ id, name, thumbnailUrl := v.thumbnailUrl.text?,
                                         releasedOn := v.releasedOn.text? }] }, 1)

-- Adds an artist; one without a name or with a known id is passed over.
def addArtist (t : Tables) (v : ArtistValues) : Tables × Nat :=
  match v.name.text?, v.id.text? with
  | none, _ => (t, 0)
  | some name, id =>
    if id.isSome ∧ t.artists.any (·.id = id) then (t, 0)
    else ({ t with artists := t.artists ++ [{ id, name, genres := v.genres }] }, 1)

def addTrack (t : Tables) (user : Datum) (v : TrackValues) : Change := do
  let user? ← requiredReference "tracks.user_id" user
  let spotifyId ← required "tracks.spotify_id" v.spotifyId
  let name ← required "tracks.name" v.name
  let albumId ← required "tracks.album_id" v.albumId
  let addedAt ← required "tracks.date_added" v.addedAt
  match user? with
  | none => .error .danglingReference
  | some userId =>
    if (t.trackOf? userId spotifyId).isSome then
      .error (.notUnique "tracks.user_id, tracks.spotify_id")
    else if (t.user? userId).isNone ∨ (t.album? albumId).isNone then .error .danglingReference
    else
      let id := t.lastTrack + 1
      .ok ({ t with
              tracks := t.tracks ++ [{ id, userId, spotifyId, name, albumId, addedAt,
                                       explicit := v.explicit }]
              lastTrack := id }, 1)

-- Adds an artist to a track; nothing and an artist it has already are passed over.
def addCredit (t : Tables) (trackId : Int) (artist : Datum) : Change :=
  match artist.text? with
  | none => .ok (t, 0)
  | some artistId =>
    if t.credits.contains ⟨trackId, artistId⟩ then .ok (t, 0)
    else if (t.track? trackId).isNone ∨ (t.artist? artistId).isNone then .error .danglingReference
    else .ok ({ t with credits := t.credits ++ [⟨trackId, artistId⟩] }, 1)

def addLabel (t : Tables) (user name criteria : Datum) (now : String) : Change := do
  let user? ← requiredReference "labels.user_id" user
  let name ← required "labels.name" name
  match user? with
  | none => .error .danglingReference
  | some userId =>
    if (t.labelNamed? userId name).isSome then
      .error (.notUnique "labels.user_id, labels.name")
    else if (t.user? userId).isNone then .error .danglingReference
    else
      let id := t.lastLabel + 1
      .ok ({ t with
              labels := t.labels ++ [{ id, userId, name, criteria := criteria.text?,
                                       createdAt := now }]
              lastLabel := id }, 1)

def setCriteria (t : Tables) (label criteria : Datum) : Tables × Nat :=
  match label.whole?.bind t.label? with
  | none => (t, 0)
  | some old =>
    ({ t with labels := t.labels.map fun l =>
        if l.id = old.id then { l with criteria := criteria.text? } else l }, 1)

def clearLabel (t : Tables) (label : Datum) : Tables × Nat :=
  match label.whole? with
  | none => (t, 0)
  | some id =>
    ({ t with memberships := t.memberships.filter (·.labelId ≠ id) },
      t.memberships.countP (·.labelId = id))

-- Gives a track a label; nothing and a track that has it already are passed over.
def addMembership (t : Tables) (track : Datum) (labelId : Int) : Change :=
  if track = .null then .ok (t, 0)
  else
    match track.whole? with
    | none => .error .danglingReference
    | some trackId =>
      if t.memberships.contains ⟨trackId, labelId⟩ then .ok (t, 0)
      else if (t.track? trackId).isNone ∨ (t.label? labelId).isNone then
        .error .danglingReference
      else .ok ({ t with memberships := t.memberships ++ [⟨trackId, labelId⟩] }, 1)

def removeMembership (t : Tables) (track : Datum) (labelId : Int) : Tables × Nat :=
  match track.whole? with
  | none => (t, 0)
  | some trackId =>
    ({ t with memberships := t.memberships.filter (· ≠ ⟨trackId, labelId⟩) },
      t.memberships.count ⟨trackId, labelId⟩)

def addPlaylist (t : Tables) (user label spotifyId : Datum) : Change := do
  let user? ← requiredReference "playlists.user_id" user
  let label? ← requiredReference "playlists.label_id" label
  let spotifyId ← required "playlists.spotify_id" spotifyId
  match user?, label? with
  | some userId, some labelId =>
    if (t.playlistOf? labelId).isSome then .error (.notUnique "playlists.label_id")
    else if (t.user? userId).isNone ∨ (t.label? labelId).isNone then .error .danglingReference
    else
      let id := t.lastPlaylist + 1
      .ok ({ t with playlists := t.playlists ++ [{ id, userId, labelId, spotifyId }]
                    lastPlaylist := id }, 1)
  | none, some labelId =>
    if (t.playlistOf? labelId).isSome then .error (.notUnique "playlists.label_id")
    else .error .danglingReference
  | _, none => .error .danglingReference

end Tables

end LabelPlaylists.Library
