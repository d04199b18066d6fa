import LabelPlaylists.Json.Reader
import LabelPlaylists.Library.Query
import LabelPlaylists.Library.Row

/-!
The library as JSON: views as objects, and whole tables as lists of rows, by the names of the tables in
the file and in the order of their keys.
-/

namespace LabelPlaylists.Library

namespace Export

def user (u : User) : Json :=
  .obj [("id", .int u.id), ("spotify_id", .str u.spotifyId), ("avatar_url", orNull u.avatarUrl),
    ("access_token", .str u.accessToken), ("refresh_token", .str u.refreshToken),
    ("access_token_expires_at", .str u.expiresAt), ("created_at", .str u.createdAt),
    ("updated_at", .str u.updatedAt)]

def artist (a : Artist) : Json :=
  .obj [("id", orNull a.id), ("name", .str a.name), ("genres", (Json.read? a.genres).getD .null)]

def track (v : TrackView) : Json :=
  .obj [("id", .int v.track.id), ("user_id", .int v.track.userId),
    ("spotify_id", .str v.track.spotifyId), ("name", .str v.track.name),
    ("album_id", .str v.track.albumId), ("date_added", .str v.track.addedAt),
    ("explicit", .bool v.track.explicit), ("album_name", .str v.albumName),
    ("artists", .arr (v.artists.map .str))]

def label (l : Label) : Json :=
  .obj [("id", .int l.id), ("user_id", .int l.userId), ("name", .str l.name),
    ("smart_criteria", orNull l.criteria), ("created_at", .str l.createdAt)]

def playlist (p : PlaylistView) : Json :=
  .obj [("id", .int p.id), ("spotify_id", .str p.spotifyId), ("label_id", .int p.labelId),
    ("label_name", .str p.labelName), ("smart_criteria", orNull p.criteria)]

end Export

namespace Tables

def exported (t : Tables) : List (String × List (List Json)) :=
  [("users", t.users.map User.row), ("albums", t.albumsInOrder.map Album.row),
    ("artists", t.artistsInOrder.map Artist.row), ("tracks", t.tracks.map Track.row),
    ("track_artists", t.creditsInOrder.map Credit.row), ("labels", t.labels.map Label.row),
    ("track_labels", t.membershipsInOrder.map Membership.row),
    ("playlists", t.playlists.map Playlist.row)]

end Tables

end LabelPlaylists.Library
