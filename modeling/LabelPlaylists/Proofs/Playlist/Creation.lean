import LabelPlaylists.Playlist.Push
import LabelPlaylists.Proofs.Account.Service
import LabelPlaylists.Proofs.Library.Mapping
import Mathlib.Data.List.Forall2

namespace LabelPlaylists

namespace Spotify.Call

-- Calls that create playlists.
def IsCreation : Call → Prop
  | createPlaylist .. => True
  | _                 => False

-- Calls that change the items of playlists.
def IsItems : Call → Prop
  | replaceItems .. | addItems .. | removeItems .. => True
  | _                                              => False

end Spotify.Call

namespace Playlist

open Library (Command Tables)
open Spotify (Call Trouble)

-- A playlist that Spotify has created: for whom, with which name, and with the id that the answer tells.
structure Creation where
  owner : String
  name  : String
  id    : Option String
deriving DecidableEq

-- What tells the label of a creation.
def Creation.key (c : Creation) : String × String := (c.owner, c.name)

-- A playlist is created by a call that is not refused.
def creation? : Call × Except Trouble Json → Option Creation
  | (.createPlaylist owner name _ _, .ok body) =>
    some ⟨owner, name, (heard .createdPlaylist (.ok body)).map (·.id)⟩
  | _ => none

-- The playlists that have been created by calls.
def creations (calls : List (Call × Except Trouble Json)) : List Creation := calls.filterMap creation?

@[simp]
theorem creations_nil : creations [] = [] := rfl

@[simp]
theorem creations_append (calls more : List (Call × Except Trouble Json)) :
    creations (calls ++ more) = creations calls ++ creations more :=
  List.filterMap_append

-- A row stands for a creation: it has the id of the answer and belongs to the user for whom the playlist
-- has been created, and its label is one of that user from which the playlist has its name.
structure Records (t : Tables) (c : Creation) (p : Library.Playlist) : Prop where
  id    : c.id = some p.spotifyId
  owner : (p.userId, c.owner) ∈ t.users.map fun v => (v.id, v.spotifyId)
  label : ∃ name, c.name = nameOf name ∧
    (p.labelId, p.userId, name) ∈ t.labels.map fun l => (l.id, l.userId, l.name)

-- The rows of playlists stand for the playlists that have been created, one for each and in their order.
structure Recorded (cs : List Creation) (t : Tables) : Prop where
  sound : t.Sound
  rows  : List.Forall₂ (Records t) cs t.playlists

variable {cs : List Creation} {c c' : Creation} {p p' : Library.Playlist} {t t' : Tables}

theorem nameOf_injective : Function.Injective nameOf := by
  intro s s' h
  have h := congrArg String.toList h
  simp only [nameOf, String.toList_append] at h
  exact String.ext (List.append_cancel_right h)

theorem Records.grows (hg : t.Grows t') (h : Records t c p) : Records t' c p where
  id    := h.id
  owner := hg.users h.owner
  label :=
    have ⟨name, hn, hl⟩ := h.label
    ⟨name, hn, hg.labels hl⟩

-- Two rows for the same label are one, and what they stand for tells the label.
theorem Records.labelId_eq (hs : t.Sound) (h : Records t c p) (h' : Records t c' p')
    (hk : c.key = c'.key) : p.labelId = p'.labelId := by
  have ⟨ho, hn⟩ := Prod.mk.inj hk
  have ⟨v, hv, he⟩ := List.mem_map.mp h.owner
  have ⟨v', hv', he'⟩ := List.mem_map.mp h'.owner
  have ⟨name, hc, hl⟩ := h.label
  have ⟨name', hc', hl'⟩ := h'.label
  have ⟨l, hl, he₁⟩ := List.mem_map.mp hl
  have ⟨l', hl', he₁'⟩ := List.mem_map.mp hl'
  simp only [Prod.mk.injEq] at he he' he₁ he₁'
  have hname : name = name' := nameOf_injective (hc.symm.trans (hn.trans hc'))
  have huser : v = v' := List.inj_on_of_nodup_map hs.userNames hv hv' (by rw [he.right, he'.right, ho])
  have hlabel : l = l' := by
    refine List.inj_on_of_nodup_map hs.labelNames hl hl' ?_
    simp only [Prod.mk.injEq]
    exact ⟨by rw [he₁.right.left, he₁'.right.left, ← he.left, ← he'.left, huser],
      by rw [he₁.right.right, he₁'.right.right, hname]⟩
  rw [← he₁.left, ← he₁'.left, hlabel]

theorem exists_of_forall₂ {as : List α} {bs : List β} {R : α → β → Prop} {a : α}
    (h : List.Forall₂ R as bs) (ha : a ∈ as) : ∃ b ∈ bs, R a b := by
  have ⟨i, hi, he⟩ := List.mem_iff_getElem.mp ha
  have hl := h.length_eq
  exact ⟨_, List.getElem_mem (hl ▸ hi), he ▸ h.get hi (hl ▸ hi)⟩

-- Lists of which the members correspond are pairwise different at once.
theorem pairwise_of_forall₂ {as : List α} {bs : List β} {R : α → β → Prop} {P : α → α → Prop}
    {Q : β → β → Prop} (h : List.Forall₂ R as bs) (hq : bs.Pairwise Q)
    (hp : ∀ {a a' b b'}, R a b → R a' b' → Q b b' → P a a') : as.Pairwise P := by
  induction h
  case nil => exact .nil
  case cons hr ht hi =>
    have ⟨hb, hq⟩ := List.pairwise_cons.mp hq
    refine List.pairwise_cons.mpr ⟨fun a' ha' => ?_, hi hq⟩
    have ⟨b', hb', hr'⟩ := exists_of_forall₂ ht ha'
    exact hp hr hr' (hb b' hb')

namespace Recorded

theorem empty : Recorded [] { version := some Library.layoutVersion } :=
  ⟨Tables.Sound.empty, .nil⟩

-- No label has had two playlists created for it.
theorem nodup_keys (h : Recorded cs t) : (cs.map Creation.key).Nodup := by
  refine List.pairwise_map.mpr ?_
  exact pairwise_of_forall₂ h.rows (List.pairwise_map.mp h.sound.playlistLabels)
    fun hr hr' hne he => hne (hr.labelId_eq h.sound hr' he)

theorem ids (h : Recorded cs t) : cs.map (·.id) = t.playlists.map fun p => some p.spotifyId := by
  have he : List.Forall₂ (fun i j => i = j) (cs.map (·.id)) (t.playlists.map fun p => some p.spotifyId) :=
    List.forall₂_map_left_iff.mpr (List.forall₂_map_right_iff.mpr (h.rows.imp fun _ _ hr => hr.id))
  rwa [List.forall₂_eq_eq_eq] at he

theorem exists_row (h : Recorded cs t) (hc : c ∈ cs) : ∃ p ∈ t.playlists, Records t c p :=
  exists_of_forall₂ h.rows hc

theorem exists_creation (h : Recorded cs t) (hp : p ∈ t.playlists) : ∃ c ∈ cs, Records t c p :=
  exists_of_forall₂ h.rows.flip hp

-- What leaves the playlists as they are leaves them recorded.
theorem effect {k : Command} (hk : ∀ u l v, k ≠ .addPlaylist u l v) (e : k.Effect t t')
    (h : Recorded cs t) : Recorded cs t' := by
  have hp : t'.playlists = t.playlists := by
    cases e
    case playlist => exact absurd rfl (hk _ _ _)
    all_goals rfl
  exact ⟨e.sound h.sound, hp ▸ h.rows.imp fun _ _ hr => hr.grows e.grows⟩

-- A row that stands for a new creation.
theorem concat (h : Recorded cs t) (id : String) {u : Int} {l : Library.Label} {name : String}
    (hu : (u, name) ∈ t.users.map fun v => (v.id, v.spotifyId)) (hl : l ∈ t.labels) (hlu : l.userId = u)
    (hn : l.id ∉ t.playlists.map (·.labelId)) :
    Recorded (cs ++ [⟨name, nameOf l.name, some id⟩])
      { t with
        playlists    := t.playlists ++ [⟨t.lastPlaylist + 1, u, l.id, id⟩]
        lastPlaylist := t.lastPlaylist + 1 } where
  sound :=
    have ⟨v, hv, he⟩ := List.mem_map.mp hu
    h.sound.addPlaylist rfl hn (List.mem_map.mpr ⟨v, hv, congrArg Prod.fst he⟩) (List.mem_map_of_mem hl)
  rows  := by
    refine List.rel_append (h.rows.imp fun _ _ hr => ⟨hr.id, hr.owner, hr.label⟩) (.cons ?_ .nil)
    exact ⟨rfl, hu, l.name, rfl, List.mem_map.mpr ⟨l, hl, by rw [hlu]⟩⟩

end Recorded

end Playlist

end LabelPlaylists
