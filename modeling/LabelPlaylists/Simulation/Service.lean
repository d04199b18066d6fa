import LabelPlaylists.Spotify.Call

/-!
A Spotify of its own, for trying programs out: an account with favorites, artists by their ids, and
playlists that get the next number when they are created. Calls can be made to fail, or to answer
with given bodies instead of its own.
-/

namespace LabelPlaylists.Simulation

open Spotify (Call Trouble)

structure Service where
  favorites : List Json := []
  profile : Json :=
    .obj [("id", .str "alice"), ("images", .arr [.obj [("url", .str "https://img/alice.jpg")]])]
  artists : List (String × List (String × Json)) := []
  -- Artists that are left out of answers.
  omitted : List String := []
  failures : List (Call.Kind × Trouble) := []
  failingNames : List String := []
  failingPlaylists : List String := []
  -- Bodies to answer with first.
  responses : List (Call.Kind × List Json) := []
  created : Nat := 0
deriving Inhabited

namespace Service

-- The part of a list from one place up to another; a negative place counts from the end.
def slice (start stop : Int) (items : List α) : List α :=
  let place (i : Int) : Nat := (if i < 0 then i + items.length else i).toNat
  (items.take (place stop)).drop (place start)

def artist (s : Service) (id : String) : Json :=
  let usual := [("id", Json.str id), ("name", .str ("Artist " ++ id)), ("genres", .arr [])]
  let own := ((s.artists.find? (·.1 = id)).map (·.2)).getD []
  .obj (own.foldl (fun fields f => Json.setField fields f.1 f.2) usual)

def trouble? (s : Service) (c : Call) : Option Trouble :=
  match s.failures.find? (·.1 = c.kind) with
  | some (_, t) => some t
  | none =>
    match c with
    | .createPlaylist _ name _ _ =>
      if s.failingNames.contains name then
        some (.refused 500 "boom" (some "Internal Server Error") [])
      else none
    | .replaceItems playlist _ =>
      if s.failingPlaylists.contains playlist then some (.refused 404 "Not found" none [])
      else none
    | _ => none

def usual (s : Service) : Call → Json × Service
  | .profile => (s.profile, s)
  | .savedTracks limit offset =>
    (.obj [("items", .arr (slice offset (offset + limit) s.favorites))], s)
  | .artists ids =>
    (.obj [("artists", .arr ((ids.filter fun id => !s.omitted.contains id).map s.artist))], s)
  | .createPlaylist .. =>
    (.obj [("id", .str ("playlist" ++ toString (s.created + 1)))],
      { s with created := s.created + 1 })
  | .replaceItems .. | .addItems .. | .removeItems .. => (.obj [("snapshot_id", .str "snap")], s)

def takeResponse? (k : Call.Kind) :
    List (Call.Kind × List Json) → Option (Json × List (Call.Kind × List Json))
  | [] => none
  | (k', bodies) :: rest =>
    if k' = k then
      match bodies with
      | [] => none
      | body :: more => some (body, (k', more) :: rest)
    else (takeResponse? k rest).map fun (body, others) => (body, (k', bodies) :: others)

-- Answers a call. A call that fails takes no given body.
def answer (c : Call) (s : Service) : Except Trouble Json × Service :=
  match s.trouble? c with
  | some t => (.error t, s)
  | none =>
    match takeResponse? c.kind s.responses with
    | some (body, responses) => (.ok body, { s with responses })
    | none =>
      let (body, s) := s.usual c
      (.ok body, s)

end Service

end LabelPlaylists.Simulation
