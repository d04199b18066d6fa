import LabelPlaylists.Spotify.Body

namespace LabelPlaylists.Spotify

open Reader Checked

namespace Reader

-- A list is read element by element.
theorem elements_map {r : Reader α} {f : α → Json} (h : ∀ a, r (f a) = .ok a) {i : Nat} {xs : List α} :
    elements r i (xs.map f) = .ok xs := by
  induction xs generalizing i
  case nil          => rfl
  case cons x xs hi => simp [elements, h, hi, under, Checked.both]

theorem list_arr {r : Reader α} {f : α → Json} (h : ∀ a, r (f a) = .ok a) {xs : List α} :
    list r (.arr (xs.map f)) = .ok xs :=
  elements_map h

theorem text_str {s : String} : text (.str s) = .ok s := rfl

theorem flag_bool {b : Bool} : flag (.bool b) = .ok b := rfl

end Reader

-- What is written as a body reads back as what it was written from.

theorem image_body (i : Image) : Reader.image i.body = .ok i := rfl

theorem artistRef_body (a : ArtistRef) : Reader.artistRef a.body = .ok a := rfl

theorem album_body (a : Album) : Reader.album a.body = .ok a := by
  simp [Reader.album, Album.body, object, Reader.map, Reader.both, field, Json.get?, text_str,
    list_arr image_body, under, Checked.both, Except.map]

theorem track_body (t : Track) : Reader.track t.body = .ok t := by
  simp [Reader.track, Track.body, object, Reader.map, Reader.both, field, Json.get?, text_str,
    flag_bool, album_body, list_arr artistRef_body, under, Checked.both, Except.map]

theorem savedTrack_body (s : SavedTrack) : Reader.savedTrack s.body = .ok s := by
  simp [Reader.savedTrack, SavedTrack.body, object, Reader.map, Reader.both, field, Json.get?, text_str,
    track_body, under, Checked.both, Except.map]

theorem savedTracks_body (s : SavedTracks) : Schema.savedTracks.read s.body = .ok s := by
  simp [Schema.savedTracks, Reader.savedTracks, SavedTracks.body, object, Reader.map, field, Json.get?,
    list_arr savedTrack_body, under, Except.map]

theorem artist_body (a : Artist) : Reader.artist a.body = .ok a := by
  simp [Reader.artist, Artist.body, object, Reader.map, Reader.both, field, Json.get?, text_str,
    list_arr fun _ => text_str, under, Checked.both, Except.map]

theorem artists_body (a : Artists) : Schema.artists.read a.body = .ok a := by
  simp [Schema.artists, Reader.artists, Artists.body, object, Reader.map, field, Json.get?,
    list_arr artist_body, under, Except.map]

end LabelPlaylists.Spotify
