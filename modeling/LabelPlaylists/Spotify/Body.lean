import LabelPlaylists.Spotify.Objects

/-!
The JSON bodies of Spotify's objects, with just the fields in use.
-/

namespace LabelPlaylists.Spotify

def orNull : Option String → Json
  | some s => .str s
  | none => .null

def Grant.body (g : Grant) : Json :=
  .obj [("access_token", .str g.accessToken), ("expires_in", .int g.expiresIn),
    ("refresh_token", orNull g.refreshToken)]

def Image.body (i : Image) : Json := .obj [("url", .str i.url)]

def Profile.body (p : Profile) : Json :=
  .obj [("id", .str p.id), ("images", .arr (p.images.map Image.body))]

def ArtistRef.body (a : ArtistRef) : Json := .obj [("id", .str a.id)]

def Album.body (a : Album) : Json :=
  .obj [("id", .str a.id), ("name", .str a.name), ("release_date", .str a.releaseDate),
    ("images", .arr (a.images.map Image.body))]

def Track.body (t : Track) : Json :=
  .obj [("id", .str t.id), ("name", .str t.name), ("explicit", .bool t.explicit),
    ("album", t.album.body), ("artists", .arr (t.artists.map ArtistRef.body))]

def SavedTrack.body (s : SavedTrack) : Json :=
  .obj [("added_at", .str s.addedAt), ("track", s.track.body)]

def SavedTracks.body (s : SavedTracks) : Json := .obj [("items", .arr (s.items.map SavedTrack.body))]

def Artist.body (a : Artist) : Json :=
  .obj [("id", .str a.id), ("name", .str a.name), ("genres", .arr (a.genres.map Json.str))]

def Artists.body (a : Artists) : Json := .obj [("artists", .arr (a.artists.map Artist.body))]

def CreatedPlaylist.body (p : CreatedPlaylist) : Json := .obj [("id", .str p.id)]

def Snapshot.body (s : Snapshot) : Json := .obj [("snapshot_id", .str s.snapshotId)]

end LabelPlaylists.Spotify
