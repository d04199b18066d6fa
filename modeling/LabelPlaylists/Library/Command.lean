import LabelPlaylists.Calendar.Moment
import LabelPlaylists.Library.Query
import LabelPlaylists.Library.Statement

/-!
What can be asked of the library, and what each operation answers.
-/

namespace LabelPlaylists.Library

-- An operation on the library. Values are as given: a column of texts takes a number by its decimal
-- text, and a column of numbers takes a text that writes a number.
inductive Command where
  | putUser (values : UserValues) (expiresAt : Moment)
  | user (id : Datum)
  | userNamed (spotifyId : Datum)
  | users
  | setTokens (user accessToken : Datum) (expiresAt : Moment) (refreshToken : Datum)
  | addAlbums (albums : List AlbumValues)
  | knownArtists (ids : List Datum)
  | addArtists (artists : List ArtistValues)
  | artist (id : Datum)
  | knownTracks (user : Datum) (ids : List Datum)
  | addTrack (user : Datum) (track : TrackValues) (artists : List Datum)
  | trackNamed (user spotifyId : Datum)
  | countTracks (user : Datum)
  | tracks (user limit offset : Datum)
  | find (user : Datum) (filter : Option Sql.Filter)
  | addLabel (user name criteria : Datum)
  | setCriteria (label criteria : Datum)
  | label (id : Datum)
  | labelNamed (user name : Datum)
  | labels (user : Datum)
  | labelsWithoutPlaylist (user : Datum)
  | addMembership (track label : Datum)
  | removeMembership (track label : Datum)
  | labelTracks (label : Datum)
  | addPlaylist (user label spotifyId : Datum)
  | playlists (user : Datum)
  | changes

namespace Command

-- The answer of an operation: new rows answer their number, batches how many rows they added.
abbrev Reply : Command → Type
  | putUser .. => Int
  | user .. => Option User
  | userNamed .. => Option User
  | users => List User
  | setTokens .. => Unit
  | addAlbums .. => Nat
  | knownArtists .. => List String
  | addArtists .. => Nat
  | artist .. => Option Artist
  | knownTracks .. => List String
  | addTrack .. => Int
  | trackNamed .. => Option TrackView
  | countTracks .. => Nat
  | tracks .. => List TrackView
  | find .. => List TrackView
  | addLabel .. => Int
  | setCriteria .. => Unit
  | label .. => Option Label
  | labelNamed .. => Option Label
  | labels .. => List Label
  | labelsWithoutPlaylist .. => List Label
  | addMembership .. => Unit
  | removeMembership .. => Unit
  | labelTracks .. => List String
  | addPlaylist .. => Int
  | playlists .. => List PlaylistView
  | changes => Nat

end Command

end LabelPlaylists.Library
