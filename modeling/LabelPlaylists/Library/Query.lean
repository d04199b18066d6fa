import LabelPlaylists.Json.Reader
import LabelPlaylists.Json.Writer
import LabelPlaylists.Library.Fault
import LabelPlaylists.Library.Tables
import LabelPlaylists.Sql.Test

/-!
Answers of the library. Tracks are listed with the newest favorite first; of two favored at the same
time the one stored later comes first.
-/

namespace LabelPlaylists.Library

-- A track with the name of its album and the names of its artists in alphabetical order.
structure TrackView where
  track : Track
  albumName : String
  artists : List String
deriving DecidableEq, Repr

structure PlaylistView where
  id : Int
  spotifyId : String
  labelId : Int
  labelName : String
  criteria : Option String
deriving DecidableEq, Repr

def Track.precedes (a b : Track) : Bool :=
  b.addedAt < a.addedAt || (a.addedAt = b.addedAt && b.id ≤ a.id)

def sorted (texts : List String) : List String := texts.mergeSort fun a b => !(b < a)

-- The genres in a stored text, as the values that criteria compare with. A null ends a text.
def genreValues (genres : String) : List Datum :=
  match Json.read? genres with
  | some (.arr elements) => elements.map fun
    | .str s => .text (String.ofList (s.toList.takeWhile (·.toNat ≠ 0)))
    | .int n => if Datum.IsStorable n then .integer n else .real (.ofInt n)
    | .bool b => .flag b
    | .real x => .real x
    | .null => .null
    | j => .text j.text
  | _ => []

namespace Tables

def artistsOf (t : Tables) (trackId : Int) : List Artist :=
  t.artists.filter fun a =>
    t.credits.any fun c => c.trackId = trackId && a.id = some c.artistId

def staticLabelsOf (t : Tables) (trackId : Int) : List Label :=
  t.labels.filter fun l => l.criteria.isNone && t.memberships.contains ⟨trackId, l.id⟩

-- A track with its album and artists; a track without an album is not listed.
def view? (t : Tables) (r : Track) : Option TrackView :=
  (t.album? r.albumId).map fun a => ⟨r, a.name, sorted ((t.artistsOf r.id).map (·.name))⟩

def listed (tracks : List Track) : List Track := tracks.mergeSort Track.precedes

def tracksOf (t : Tables) (user : Datum) : List Track :=
  match user.whole? with
  | none => []
  | some userId => listed (t.tracks.filter (·.userId = userId))

-- What a test on a track refers to.
def scope (t : Tables) (r : Track) (a : Album) : Sql.Scope where
  value
    | .name => .text r.name
    | .album => .text a.name
    | .explicit => .integer (if r.explicit then 1 else 0)
    | .added => .text r.addedAt
    | .released => .ofOption a.releasedOn
    | .artist | .genre | .label => .null
  rows
    | .artists => (t.artistsOf r.id).map fun a => .text a.name
    | .genres => (t.artistsOf r.id).flatMap fun a => genreValues a.genres
    | .labels => (t.staticLabelsOf r.id).map fun l => .text l.name

def passes (t : Tables) (f : Sql.Filter) (r : Track) : Bool :=
  match t.album? r.albumId with
  | some a => f.passes (t.scope r a)
  | none => false

def find (t : Tables) (user : Datum) (f : Option Sql.Filter) : Except Fault (List TrackView) :=
  match f with
  | none => .ok ((t.tracksOf user).filterMap t.view?)
  | some f =>
    if ¬f.test.IsReadable then .error .tooDeep
    else if ¬f.test.IsLow then .error .tooHigh
    else .ok (((t.tracksOf user).filter (t.passes f)).filterMap t.view?)

-- A stretch of a user's tracks. A negative limit is none, and a negative offset is zero.
def trackPage (t : Tables) (user limit offset : Datum) : Except Fault (List TrackView) :=
  match limit.whole? with
  | none => .error .notANumber
  | some limit =>
    if limit = 0 then .ok []
    else
      match offset.whole? with
      | none => .error .notANumber
      | some offset =>
        let rest := ((t.tracksOf user).filterMap t.view?).drop offset.toNat
        .ok (if limit < 0 then rest else rest.take limit.toNat)

def labelTracks (t : Tables) (label : Datum) : List String :=
  match label.whole? with
  | none => []
  | some labelId =>
    (listed (t.tracks.filter fun r => t.memberships.contains ⟨r.id, labelId⟩)).map (·.spotifyId)

def labelsOf (t : Tables) (user : Datum) : List Label :=
  match user.whole? with
  | none => []
  | some userId => (t.labels.filter (·.userId = userId)).mergeSort fun a b => !(b.name < a.name)

def labelsWithoutPlaylist (t : Tables) (user : Datum) : List Label :=
  match user.whole? with
  | none => []
  | some userId => t.labels.filter fun l => l.userId = userId && (t.playlistOf? l.id).isNone

def playlistsOf (t : Tables) (user : Datum) : List PlaylistView :=
  match user.whole? with
  | none => []
  | some userId =>
    (t.playlists.filter (·.userId = userId)).filterMap fun p =>
      (t.label? p.labelId).map fun l => ⟨p.id, p.spotifyId, l.id, l.name, l.criteria⟩

-- Those of the given ids that belong to known artists, in alphabetical order.
def knownArtists (t : Tables) (ids : List Datum) : List String :=
  sorted <| t.artists.filterMap fun a =>
    a.id.filter fun id => ids.any fun d => d.text? = some id

-- Those of the given Spotify ids under which a user has tracks, in alphabetical order.
def knownTracks (t : Tables) (user : Datum) (ids : List Datum) : List String :=
  match user.whole? with
  | none => []
  | some userId =>
    sorted <| (t.tracks.filter fun r =>
      r.userId = userId && ids.any fun d => d.text? = some r.spotifyId).map (·.spotifyId)

-- The first of two optional texts; nothing comes first.
def idPrecedes (a b : Option String) : Bool :=
  match a, b with
  | none, _ => true
  | some _, none => false
  | some s, some t => !(t < s)

def albumsInOrder (t : Tables) : List Album := t.albums.mergeSort fun a b => idPrecedes a.id b.id

def artistsInOrder (t : Tables) : List Artist := t.artists.mergeSort fun a b => idPrecedes a.id b.id

def creditsInOrder (t : Tables) : List Credit :=
  t.credits.mergeSort fun a b =>
    a.trackId < b.trackId || (a.trackId = b.trackId && !(b.artistId < a.artistId))

def membershipsInOrder (t : Tables) : List Membership :=
  t.memberships.mergeSort fun a b =>
    a.trackId < b.trackId || (a.trackId = b.trackId && a.labelId ≤ b.labelId)

end Tables

end LabelPlaylists.Library
