import LabelPlaylists.Proofs.Favorites.Advance
import LabelPlaylists.Proofs.Spotify.Body

namespace LabelPlaylists.Favorites

open Spotify (SavedTrack)

namespace Sample

def noon : Moment := .ofDay ⟨2024, 1, 1⟩ (12 * 3600 * 1000000) (some 0)

def grantText : String := "\x7b\"access_token\": \"token\", \"expires_in\": 3600\x7d"

-- A page of favorites is answered if its offset is within reach.
def answer (favorites : List SavedTrack) (reach : Nat → Bool) : (r : Request) → Scene → r.Reply × Scene
  | .library c, s => ((s.library.perform noon c).1, { s with library := (s.library.perform noon c).2 })
  | .call _ c, s =>
    let reply : Except Spotify.Trouble Json := match c with
      | .savedTracks limit offset =>
        if reach offset.toNat then
          .ok (Spotify.SavedTracks.body ⟨(favorites.drop offset.toNat).take limit.toNat⟩)
        else .error (.unreachable "timed out")
      | .artists ids => .ok (Spotify.Artists.body ⟨ids.map fun id => ⟨id, id, []⟩⟩)
      | _            => .error (.other "not here")
    (reply, { s with calls := s.calls ++ [c] })
  | .grant _, s       => (.ok ⟨200, grantText⟩, s)
  | .now, s           => (some noon, s)
  | .log _, s         => ((), s)
  | .session, s       => (s.session, s)
  | .setSession x, s  => ((), { s with session := some x })
  | .print _, s       => ((), s)
  | .complain _, s    => ((), s)
  | .prompt _, s      => (none, s)
  | .secret, s        => ("", s)
  | .source _, s      => (.nothing, s)
  | .settings _, s    => (.error .notText, s)
  | .useSettings _, s => ((), s)
  | .openLog .., s    => (.error .isFile, s)
  | .closeLog, s      => ((), s)
  | .openLibrary _, s => (.error .interrupted, s)
  | .closeLibrary, s  => ((), s)

-- An account whose token endpoint always grants, and whose artists can all be looked up.
def account (favorites : List SavedTrack) (reach : Nat → Bool) : Surroundings Scene where
  answer     := answer favorites reach
  scene      := id
  clock      := fun _ => noon
  library    := fun _ => rfl
  call       := rfl
  grant      := rfl
  now        := rfl
  log        := rfl
  session    := rfl
  setSession := rfl

variable {favorites : List SavedTrack} {reach : Nat → Bool} {n : Nat}

theorem granted_grantText : granted (.ok ⟨200, grantText⟩) = some ⟨"token", 3600, none⟩ := by
  decide +kernel

theorem renews : (account favorites reach).Renews fun _ => True where
  clock  := by
    intros
    show noon.inUtc.InRange
    decide
  grant  := fun {_ _} _ => Option.isSome_iff_exists.mpr ⟨_, granted_grantText⟩
  expiry := by
    intro s s' f g _ _ h
    cases granted_grantText.symm.trans h
    show (Session.expiry? noon.inUtc 3600).isSome
    decide

theorem heard_savedTracks {token : String} {s : Scene} {offset limit : Nat} :
    heard Spotify.Schema.savedTracks
        ((account favorites reach).answer (.call token (.savedTracks limit offset)) s).1
      = if reach offset then some ⟨(favorites.drop offset).take limit⟩ else none := by
  show heard _ (if reach offset then _ else _) = _
  split
  case isTrue  => exact congrArg Except.toOption (Spotify.savedTracks_body _)
  case isFalse => rfl

theorem heard_artists {token : String} {s : Scene} {ids : List String} :
    heard Spotify.Schema.artists ((account favorites reach).answer (.call token (.artists ids)) s).1
      = some ⟨ids.map fun id => ⟨id, id, []⟩⟩ :=
  congrArg Except.toOption (Spotify.artists_body _)

theorem offers : Offers (account favorites reach) (fun _ => True) favorites where
  keeps     := fun _ _ _ => trivial
  favorites := by
    intro s token found offset limit _ h
    rw [heard_savedTracks] at h
    split at h <;> cases h
    rfl
  artists   := by
    intro s token ids found _ h
    cases heard_artists.symm.trans h
    simp [Function.comp_def]

theorem reach_of_hears (h : Hears (account favorites reach) (fun _ => True) n) : reach (offset n) := by
  have ⟨token, s, _, h⟩ := h
  rw [heard_savedTracks] at h
  split at h
  case isTrue hl => exact hl
  case isFalse   => cases h

theorem delivers (h : reach (offset n)) : Delivers (account favorites reach) (fun _ => True) n where
  toRenews  := renews
  favorites := fun _ => by rw [heard_savedTracks, if_pos h]; rfl
  artists   := fun _ => by rw [heard_artists]; rfl

def favorite (id : String) : SavedTrack :=
  ⟨"2024-01-01T00:00:00Z", id, "Title", false, ⟨"album", "Album", "2020", []⟩, [⟨"artist"⟩]⟩

def six : List SavedTrack := ["t1", "t2", "t3", "t4", "t5", "t6"].map favorite

def user : Library.User :=
  ⟨1, "alice", none, "token", "refresh", "2030-01-01T00:00:00+00:00", "now", "now"⟩

def tables : Library.Tables where
  users    := [user]
  albums   := [⟨some "album", "Album", none, none⟩]
  lastUser := 1

-- A user is in session, in whose library the tables are.
def scene (t : Library.Tables) : Scene :=
  ⟨⟨"library", t, t, 0⟩, some ⟨1, "alice", "token", "refresh", noon⟩, []⟩

theorem serves {t : Library.Tables} (h : t.Sound) (hu : 1 ∈ t.users.map (·.id)) :
    (account favorites reach).Serves (fun _ => True) 1 (scene t) :=
  ⟨trivial, ⟨_, rfl, rfl⟩, ⟨h, h⟩, hu⟩

theorem tables_sound : tables.Sound := by
  constructor <;> simp [tables, user]

end Sample

end LabelPlaylists.Favorites
