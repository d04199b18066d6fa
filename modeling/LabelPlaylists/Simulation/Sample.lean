import LabelPlaylists.Simulation.World

/-!
Sample tracks for a simulated library. A track comes with its album and its artists, which stay in the
library even if the track itself is refused.
-/

namespace LabelPlaylists.Simulation

open Library (Command)

namespace Sample

-- A track to be put into a library, with its album and its artists.
structure Track where
  user : Datum := .integer 1
  values : Library.TrackValues
  album : Library.AlbumValues
  artists : List Library.ArtistValues

def usualAlbum : Library.AlbumValues :=
  ⟨.text "album1", .text "Album", .null, .text "2020-05-01"⟩

def usualArtists : List Library.ArtistValues :=
  [⟨.text "artist1", .text "Artist", (Json.arr []).text⟩]

-- An operation that must succeed for the rest to be done.
def andThen (c : Command) (rest : c.Reply → World → Except Library.Failure α × World) (w : World) :
    Except Library.Failure α × World :=
  match w.performed c with
  | (.ok reply, w) => rest reply w
  | (.error f, w) => (.error f, w)

def addRest (t : Track) : World → Except Library.Failure Unit × World :=
  andThen (.addAlbums [t.album]) fun _ =>
    andThen (.addArtists t.artists) fun _ w => (.ok (), w)

def addTrack (t : Track) (w : World) : Except Library.Failure Int × World :=
  match addRest t w with
  | (.error f, w) => (.error f, w)
  | (.ok (), w) =>
    andThen (.addTrack t.user t.values (t.artists.map (·.id))) (fun id w => (.ok id, w)) w

-- The track of a number in a row of tracks, a second apart from each other.
def numbered (user : Datum) (start : String) (i : Nat) : Track where
  user
  values :=
    let id := start ++ Text.padded 3 i
    let added := "2024-01-01T00:" ++ Text.padded 2 (i / 60) ++ ":" ++ Text.padded 2 (i % 60) ++ "Z"
    ⟨.text id, .text ("Track " ++ id), .text "album1", .text added, false⟩
  album := usualAlbum
  artists := usualArtists

-- Adds a row of tracks from a number on, all with a label if one is given.
def addMany (user : Datum) (start : String) (label : Option Datum) (i : Nat) :
    Nat → World → Except Library.Failure Unit × World
  | 0, w => (.ok (), w)
  | n + 1, w =>
    match addTrack (numbered user start i) w with
    | (.error f, w) => (.error f, w)
    | (.ok id, w) =>
      match label with
      | none => addMany user start label (i + 1) n w
      | some l => andThen (.addMembership (.integer id) l) (fun _ => addMany user start label (i + 1) n) w

end Sample

end LabelPlaylists.Simulation
