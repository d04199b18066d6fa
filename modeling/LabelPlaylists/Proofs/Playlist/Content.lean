import LabelPlaylists.Proofs.Playlist.Creation
import Mathlib.Logic.Function.Basic

namespace LabelPlaylists

open Library (Tables)
open Spotify (Call Trouble)

namespace Spotify.Call

-- The playlist of which a call changes the items, and the items that the call carries.
def items? : Call → Option (String × List String)
  | replaceItems playlist uris | addItems playlist uris | removeItems playlist uris => some (playlist, uris)
  | _ => none

end Spotify.Call

namespace Playlist

-- The items of every playlist.
abbrev Contents := String → List String

-- What is in the playlists after a call that has been answered.
def Contents.after (r : Contents) : Call → Contents
  | .replaceItems playlist uris => Function.update r playlist uris
  | .addItems playlist uris     => Function.update r playlist (r playlist ++ uris)
  | .removeItems playlist uris  => Function.update r playlist ((r playlist).filter (· ∉ uris))
  | _                           => r

def Contents.replay (r : Contents) (calls : List Call) : Contents := calls.foldl Contents.after r

-- The calls by which a playlist is filled with tracks.
def filling (playlist : String) (tracks : List String) : List Call :=
  let placeholder := [trackUri placeholderTrack]
  let uris := if tracks.isEmpty then placeholder else tracks.map trackUri
  match pieces moreItems uris with
  | [] => []
  | first :: rest =>
    .replaceItems playlist first :: rest.map (.addItems playlist)
      ++ if tracks.isEmpty then [.removeItems playlist placeholder] else []

variable {r : Contents} {playlist : String} {tracks : List String} {calls more : List Call}

theorem filling_nil : filling playlist [] =
    [.replaceItems playlist [trackUri placeholderTrack], .removeItems playlist [trackUri placeholderTrack]] := by
  simp [filling, pieces]

theorem filling_cons (playlist t : String) (tracks : List String) : ∃ first parts,
    pieces moreItems ((t :: tracks).map trackUri) = first :: parts ∧
      filling playlist (t :: tracks) = .replaceItems playlist first :: parts.map (.addItems playlist) := by
  unfold filling
  dsimp only [List.isEmpty_cons]
  simp only [Bool.false_eq_true, if_false]
  cases hp : pieces moreItems ((t :: tracks).map trackUri)
  case nil =>
    have hf := flatten_pieces moreItems ((t :: tracks).map trackUri)
    rw [hp] at hf
    cases hf
  case cons first parts => exact ⟨first, parts, rfl, List.append_nil _⟩

namespace Contents

@[simp]
theorem replay_nil : r.replay [] = r := rfl

@[simp]
theorem replay_cons {c : Call} : r.replay (c :: calls) = (r.after c).replay calls := rfl

@[simp]
theorem replay_append : r.replay (calls ++ more) = (r.replay calls).replay more := List.foldl_append

-- A call leaves all playlists alone but the one it is for.
theorem after_of_ne {c : Call} (h : ∀ i ∈ c.items?, i.1 ≠ playlist) : r.after c playlist = r playlist := by
  cases c
  case replaceItems => exact Function.update_of_ne (h _ rfl).symm _ _
  case addItems     => exact Function.update_of_ne (h _ rfl).symm _ _
  case removeItems  => exact Function.update_of_ne (h _ rfl).symm _ _
  all_goals rfl

theorem replay_of_ne (h : ∀ c ∈ calls, ∀ i ∈ c.items?, i.1 ≠ playlist) :
    r.replay calls playlist = r playlist := by
  induction calls generalizing r
  case nil => rfl
  case cons c rest hr =>
    have ⟨hc, h⟩ := List.forall_mem_cons.mp h
    exact (hr h).trans (after_of_ne hc)

theorem replay_additions {parts : List (List String)} :
    r.replay (parts.map (.addItems playlist)) = Function.update r playlist (r playlist ++ parts.flatten) := by
  induction parts generalizing r
  case nil => simp
  case cons part rest hr =>
    rw [List.map_cons, replay_cons, hr]
    simp [after]

-- Whatever has been in a playlist, filling it leaves it with the given tracks, and others as they were.
theorem replay_filling :
    r.replay (filling playlist tracks) = Function.update r playlist (tracks.map trackUri) := by
  cases tracks
  case nil => simp [filling_nil, after]
  case cons t rest =>
    have ⟨first, parts, hp, hf⟩ := filling_cons playlist t rest
    have hall := flatten_pieces moreItems ((t :: rest).map trackUri)
    rw [hp, List.flatten_cons] at hall
    rw [hf, replay_cons, replay_additions, ← hall]
    simp [after]

end Contents

-- Filling a playlist concerns no other one, and no call is empty or carries too much.
theorem items_filling {c : Call} (h : c ∈ filling playlist tracks) :
    ∃ uris, c.items? = some (playlist, uris) ∧ 1 ≤ uris.length ∧ uris.length ≤ 50 := by
  cases tracks
  case nil =>
    rw [filling_nil] at h
    simp only [List.mem_cons, List.not_mem_nil, or_false] at h
    rcases h with rfl | rfl <;> exact ⟨_, rfl, by simp⟩
  case cons t rest =>
    have ⟨first, parts, hp, hf⟩ := filling_cons playlist t rest
    have hl {part : List String} (hm : part ∈ first :: parts) := length_le_of_mem_pieces (hp ▸ hm)
    rw [hf] at h
    rcases List.mem_cons.mp h with rfl | h
    case inl => exact ⟨first, rfl, hl List.mem_cons_self⟩
    case inr =>
      have ⟨part, hm, he⟩ := List.mem_map.mp h
      exact ⟨part, he ▸ rfl, hl (List.mem_cons_of_mem _ hm)⟩

-- While the playlists of a user are filled, nothing but tokens changes in the library, and nothing is left
-- to be made permanent.
structure Filling (u : Int) (t : Tables) (a : Scene) : Prop where
  session   : ∃ x, a.session = some x ∧ x.userId = u
  user      : u ∈ a.library.tables.users.map (·.id)
  sound     : a.library.tables.Sound
  saved     : a.library.saved = a.library.tables
  matched   : t.Matches a.library.tables
  playlists : a.library.tables.playlists = t.playlists

end Playlist

-- Surroundings in which no call fails that a push makes, and in which there is a valid token for it.
structure Surroundings.Obliging {σ : Type} (S : Surroundings σ) : Prop extends S.Renews fun _ => True where
  creates : ∀ {token owner name isPublic description s},
    (heard .createdPlaylist
      (S.answer (.call token (.createPlaylist owner name isPublic description)) s).1).isSome
  fills   : ∀ {token c s}, c.IsItems → (heard .snapshot (S.answer (.call token c) s).1).isSome

open Playlist

variable {σ : Type} {S : Surroundings σ} {s s' : σ} {es : List Exchange} {u : Int} {t : Tables}

theorem Playlist.Filling.serves (h : Filling u t (S.scene s)) : S.Serves (fun _ => True) u s where
  good    := trivial
  session := h.session
  sound   := ⟨h.sound, h.saved ▸ h.sound⟩
  user    := h.user

theorem Playlist.filling_lasting : S.Lasting (Filling u t) where
  rests := by
    intro s s' hr h
    rcases hr with hs | ⟨x, g, m, hx, _, _, _, t', _, ht, hs⟩ <;> rw [hs]
    case inl => exact h
    case inr =>
      have ⟨y, hy, hu⟩ := h.session
      cases hx.symm.trans hy
      have ⟨hm, hp⟩ := Tables.Matches.of_setTokens ht
      refine ⟨⟨_, rfl, hu⟩, ?_, ?_, rfl, h.matched.trans hm, hp.trans h.playlists⟩
      · exact hm.userIds ▸ h.user
      · exact (Library.Command.Effect.of_setTokens (m := m) ht).sound h.sound
  call  := fun _ h => ⟨h.session, h.user, h.sound, h.saved, h.matched, h.playlists⟩

end LabelPlaylists
