import LabelPlaylists.Library.Row

/-!
What a library file holds, as one JSON object: the version of the layout, the numbers given out last,
and the rows of every table in the order in which they were added. Reading a saved library gives
back its tables.
-/

namespace LabelPlaylists.Library

def rows (row : α → List Json) (items : List α) : Json := .arr (items.map fun a => .arr (row a))

def rowOf? (read : List Json → Option α) : Json → Option α
  | .arr row => read row
  | _ => none

def rowsOf? (read : List Json → Option α) : Json → Option (List α)
  | .arr items => items.mapM (rowOf? read)
  | _ => none

theorem rowsOf?_rows {row : α → List Json} {read : List Json → Option α}
    (h : ∀ a, read (row a) = some a) (items : List α) : rowsOf? read (rows row items) = some items := by
  simp only [rowsOf?, rows]
  induction items with
  | nil => rfl
  | cons a rest ih => simp [rowOf?, h, ih]

namespace Tables

def saved (t : Tables) : Json :=
  .obj [("version", (t.version.map Json.int).getD .null),
    ("numbers", .arr [.int t.lastUser, .int t.lastTrack, .int t.lastLabel, .int t.lastPlaylist]),
    ("users", rows User.row t.users), ("albums", rows Album.row t.albums),
    ("artists", rows Artist.row t.artists), ("tracks", rows Track.row t.tracks),
    ("credits", rows Credit.row t.credits), ("labels", rows Label.row t.labels),
    ("memberships", rows Membership.row t.memberships),
    ("playlists", rows Playlist.row t.playlists)]

def versionOf? : Json → Option (Option Int)
  | .int n => some (some n)
  | .null => some none
  | _ => none

def ofSaved? (j : Json) : Option Tables := do
  let .arr [.int lastUser, .int lastTrack, .int lastLabel, .int lastPlaylist] ← j.get? "numbers"
    | none
  some {
    version := ← versionOf? (← j.get? "version")
    users := ← rowsOf? User.ofRow? (← j.get? "users")
    albums := ← rowsOf? Album.ofRow? (← j.get? "albums")
    artists := ← rowsOf? Artist.ofRow? (← j.get? "artists")
    tracks := ← rowsOf? Track.ofRow? (← j.get? "tracks")
    credits := ← rowsOf? Credit.ofRow? (← j.get? "credits")
    labels := ← rowsOf? Label.ofRow? (← j.get? "labels")
    memberships := ← rowsOf? Membership.ofRow? (← j.get? "memberships")
    playlists := ← rowsOf? Playlist.ofRow? (← j.get? "playlists")
    lastUser, lastTrack, lastLabel, lastPlaylist }

theorem ofSaved?_saved (t : Tables) : ofSaved? t.saved = some t := by
  have version : versionOf? ((t.version.map Json.int).getD .null) = some t.version := by
    cases t.version <;> rfl
  simp [ofSaved?, saved, Json.get?, version, rowsOf?_rows User.ofRow?_row,
    rowsOf?_rows Album.ofRow?_row, rowsOf?_rows Artist.ofRow?_row, rowsOf?_rows Track.ofRow?_row,
    rowsOf?_rows Credit.ofRow?_row, rowsOf?_rows Label.ofRow?_row,
    rowsOf?_rows Membership.ofRow?_row, rowsOf?_rows Playlist.ofRow?_row]

end Tables

end LabelPlaylists.Library
