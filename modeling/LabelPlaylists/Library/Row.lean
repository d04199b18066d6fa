import LabelPlaylists.Json.Basic
import LabelPlaylists.Library.Tables

/-!
Rows of the tables as lists of JSON values, column by column. A row that was written reads back as
what it was written from.
-/

namespace LabelPlaylists.Library

def orNull : Option String → Json
  | some s => .str s
  | none => .null

def ofOrNull? : Json → Option (Option String)
  | .str s => some (some s)
  | .null => some none
  | _ => none

@[simp]
theorem ofOrNull?_orNull (s : Option String) : ofOrNull? (orNull s) = some s := by
  cases s <;> rfl

namespace User

def row (u : User) : List Json :=
  [.int u.id, .str u.spotifyId, orNull u.avatarUrl, .str u.accessToken, .str u.refreshToken,
    .str u.expiresAt, .str u.createdAt, .str u.updatedAt]

def ofRow? : List Json → Option User
  | [.int id, .str spotifyId, avatarUrl, .str accessToken, .str refreshToken, .str expiresAt,
      .str createdAt, .str updatedAt] => do
    some { id, spotifyId, avatarUrl := ← ofOrNull? avatarUrl, accessToken, refreshToken, expiresAt,
           createdAt, updatedAt }
  | _ => none

theorem ofRow?_row (u : User) : ofRow? u.row = some u := by simp [row, ofRow?]

end User

namespace Album

def row (a : Album) : List Json :=
  [orNull a.id, .str a.name, orNull a.thumbnailUrl, orNull a.releasedOn]

def ofRow? : List Json → Option Album
  | [id, .str name, thumbnailUrl, releasedOn] => do
    some { id := ← ofOrNull? id, name, thumbnailUrl := ← ofOrNull? thumbnailUrl,
           releasedOn := ← ofOrNull? releasedOn }
  | _ => none

theorem ofRow?_row (a : Album) : ofRow? a.row = some a := by simp [row, ofRow?]

end Album

namespace Artist

def row (a : Artist) : List Json := [orNull a.id, .str a.name, .str a.genres]

def ofRow? : List Json → Option Artist
  | [id, .str name, .str genres] => do some { id := ← ofOrNull? id, name, genres }
  | _ => none

theorem ofRow?_row (a : Artist) : ofRow? a.row = some a := by simp [row, ofRow?]

end Artist

namespace Track

-- Explicit tracks are marked by a one, the others by a zero.
def row (t : Track) : List Json :=
  [.int t.id, .int t.userId, .str t.spotifyId, .str t.name, .str t.albumId, .str t.addedAt,
    .int (if t.explicit then 1 else 0)]

def ofRow? : List Json → Option Track
  | [.int id, .int userId, .str spotifyId, .str name, .str albumId, .str addedAt,
      .int explicit] =>
    some { id, userId, spotifyId, name, albumId, addedAt, explicit := explicit ≠ 0 }
  | _ => none

theorem ofRow?_row (t : Track) : ofRow? t.row = some t := by
  obtain ⟨id, userId, spotifyId, name, albumId, addedAt, explicit⟩ := t
  cases explicit <;> simp [row, ofRow?]

end Track

namespace Credit

def row (c : Credit) : List Json := [.int c.trackId, .str c.artistId]

def ofRow? : List Json → Option Credit
  | [.int trackId, .str artistId] => some { trackId, artistId }
  | _ => none

theorem ofRow?_row (c : Credit) : ofRow? c.row = some c := rfl

end Credit

namespace Label

def row (l : Label) : List Json :=
  [.int l.id, .int l.userId, .str l.name, orNull l.criteria, .str l.createdAt]

def ofRow? : List Json → Option Label
  | [.int id, .int userId, .str name, criteria, .str createdAt] => do
    some { id, userId, name, criteria := ← ofOrNull? criteria, createdAt }
  | _ => none

theorem ofRow?_row (l : Label) : ofRow? l.row = some l := by simp [row, ofRow?]

end Label

namespace Membership

def row (m : Membership) : List Json := [.int m.trackId, .int m.labelId]

def ofRow? : List Json → Option Membership
  | [.int trackId, .int labelId] => some { trackId, labelId }
  | _ => none

theorem ofRow?_row (m : Membership) : ofRow? m.row = some m := rfl

end Membership

namespace Playlist

def row (p : Playlist) : List Json :=
  [.int p.id, .int p.userId, .int p.labelId, .str p.spotifyId]

def ofRow? : List Json → Option Playlist
  | [.int id, .int userId, .int labelId, .str spotifyId] => some { id, userId, labelId, spotifyId }
  | _ => none

theorem ofRow?_row (p : Playlist) : ofRow? p.row = some p := rfl

end Playlist

end LabelPlaylists.Library
