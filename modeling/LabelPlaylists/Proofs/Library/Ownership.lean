import LabelPlaylists.Proofs.Library.Append
import LabelPlaylists.Proofs.Library.Plain

namespace LabelPlaylists.Library

namespace Tables

-- What is tied together belongs to the same user: the tracks that carry a label and the playlist that is made
-- from it.
structure Owned (t : Tables) : Prop where
  memberships : ∀ m ∈ t.memberships, ∀ r ∈ t.tracks, r.id = m.trackId → ∀ l ∈ t.labels, l.id = m.labelId →
    r.userId = l.userId
  playlists   : ∀ p ∈ t.playlists, ∀ l ∈ t.labels, l.id = p.labelId → l.userId = p.userId

-- No other user has a track of this number.
def TrackOf (t : Tables) (u k : Int) : Prop := ∀ r ∈ t.tracks, r.id = k → r.userId = u

-- No other user has a label of this number.
def LabelOf (t : Tables) (u k : Int) : Prop := ∀ l ∈ t.labels, l.id = k → l.userId = u

theorem Sound.trackOf {t : Tables} (hs : t.Sound) {r : Track} (hr : r ∈ t.tracks) : t.TrackOf r.userId r.id := by
  intro r' hr' he
  rw [List.inj_on_of_nodup_map hs.tracks hr' hr he]

theorem Sound.labelOf {t : Tables} (hs : t.Sound) {l : Label} (hl : l ∈ t.labels) : t.LabelOf l.userId l.id := by
  intro l' hl' he
  rw [List.inj_on_of_nodup_map hs.labels hl' hl he]

theorem Owned.empty : Owned { version := some layoutVersion } := ⟨nofun, nofun⟩

-- What is said of the rows that there are holds of those that there were before.

theorem ExtendsTo.trackOf {t t' : Tables} {u k : Int} (h : t.ExtendsTo t') (hk : t'.TrackOf u k) :
    t.TrackOf u k :=
  fun r hr => hk r (h.tracks.subset hr)

theorem ExtendsTo.labelOf {t t' : Tables} {u k : Int} (h : t.ExtendsTo t') (hk : t'.LabelOf u k) :
    t.LabelOf u k := by
  rintro l hl rfl
  have ⟨l', hl', he⟩ := List.mem_map.mp (h.labels.subset (List.mem_map_of_mem hl))
  simp only [Label.origin, Prod.mk.injEq] at he
  rw [← he.right.left]
  exact hk l' hl' he.left

end Tables

-- An operation in the hands of a user: the rows that it works on are the user's. Names under which users are
-- put into the library are of the given kind.
def Command.IsOf (u : Int) (N : String → Prop) (t : Tables) : Command → Prop
  | .putUser v _ => ∀ s, v.spotifyId.text? = some s → N s
  | .setTokens d .. | .addTrack d .. | .addLabel d .. => ∀ k, d.whole? = some k → k = u
  | .setCriteria l _ => ∀ k, l.whole? = some k → t.LabelOf u k
  | .addMembership r l | .removeMembership r l =>
    (∀ k, r.whole? = some k → t.TrackOf u k) ∧ ∀ k, l.whole? = some k → t.LabelOf u k
  | .addPlaylist d l _ =>
    (∀ k, d.whole? = some k → k = u) ∧ ∀ k, l.whole? = some k → t.LabelOf u k
  | _ => True

namespace Command.Effect

variable {c : Command} {t t' : Tables} {u k : Int} {N : String → Prop}

-- Whoever has an operation in hand comes by what the operation adds.

theorem trackOf (hc : c.IsOf u N t) (e : c.Effect t t') (h : t.TrackOf u k) : t'.TrackOf u k := by
  cases e
  case track hu _ _ _ _ _ _ _ => exact forall_mem_concat h fun _ => hc _ hu
  all_goals exact h

theorem labelOf (hc : c.IsOf u N t) (e : c.Effect t t') (h : t.LabelOf u k) : t'.LabelOf u k := by
  cases e
  case label hu _ _ _ => exact forall_mem_concat h fun _ => hc _ hu
  case criteria =>
    refine List.forall_mem_map.mpr fun l hl => ?_
    split <;> exact h l hl
  all_goals exact h

-- Only rows of the same user are tied together.
theorem owned (hc : c.IsOf u N t) (e : c.Effect t t') (hs : t.Sound) (h : t.Owned) : t'.Owned := by
  cases e
  case track =>
    refine { h with memberships := fun m hm => forall_mem_concat (h.memberships m hm) fun he => ?_ }
    have hn := Tables.Sound.succ_notMem hs.trackNumbers
    exact absurd (hs.memberTracks (List.mem_map_of_mem hm)) (he ▸ hn)
  case label =>
    have hn := Tables.Sound.succ_notMem hs.labelNumbers
    refine ⟨fun m hm r hr hi => forall_mem_concat (h.memberships m hm r hr hi) fun he => ?_,
      fun p hp => forall_mem_concat (h.playlists p hp) fun he => ?_⟩
    case refine_1 => exact absurd (hs.memberLabels (List.mem_map_of_mem hm)) (he ▸ hn)
    case refine_2 => exact absurd (hs.playlistsLabel (List.mem_map_of_mem hp)) (he ▸ hn)
  case criteria =>
    refine ⟨fun m hm r hr hi => List.forall_mem_map.mpr fun l hl => ?_,
      fun p hp => List.forall_mem_map.mpr fun l hl => ?_⟩
    case refine_1 => split <;> exact h.memberships m hm r hr hi l hl
    case refine_2 => split <;> exact h.playlists p hp l hl
  case cleared    => exact { h with memberships := fun m hm => h.memberships m (List.mem_of_mem_filter hm) }
  case removed    => exact { h with memberships := fun m hm => h.memberships m (List.mem_of_mem_filter hm) }
  case membership hl hr _ _ _ =>
    refine { h with memberships := forall_mem_concat h.memberships fun r hr' hi l hl' he => ?_ }
    rw [hc.left _ hr r hr' hi, hc.right _ hl l hl' he]
  case playlist hu hl _ _ _ _ =>
    refine { h with playlists := forall_mem_concat h.playlists fun l hl' he => ?_ }
    rw [hc.right _ hl l hl' he, hc.left _ hu]
  all_goals exact { h with }

end Command.Effect

-- What operations in the hands of a user keep of sound tables.
structure Kept (u : Int) (N : String → Prop) (I : Tables → Prop) : Prop where
  sound : ∀ {t}, I t → t.Sound
  step  : ∀ {c : Command} {t t'}, c.IsOf u N t → c.Step t t' → I t → I t'

namespace Kept

variable {u k : Int} {N : String → Prop} {I : Tables → Prop} {c : Command} {s : Store} {now : Moment}

theorem owned : Kept u N fun t => t.Sound ∧ t.Owned where
  sound h      := h.left
  step hc e h  := ⟨e.effect.sound h.left, e.effect.owned hc h.left h.right⟩

theorem and (h : Kept u N I) {K : Tables → Prop}
    (hk : ∀ {c : Command} {t t'}, c.IsOf u N t → c.Effect t t' → K t → K t') : Kept u N fun t => I t ∧ K t where
  sound hi     := h.sound hi.left
  step hc e hi := ⟨h.step hc e hi.left, hk hc e.effect hi.right⟩

-- To whom a track or a label belongs does not change.

theorem track (h : Kept u N I) : Kept u N fun t => I t ∧ t.TrackOf u k :=
  h.and fun hc e hr => e.trackOf hc hr

theorem labels (h : Kept u N I) {ls : List Label} : Kept u N fun t => I t ∧ ∀ l ∈ ls, t.LabelOf u l.id :=
  h.and fun hc e hl l hm => e.labelOf hc (hl l hm)

theorem perform (h : Kept u N I) (hc : ∀ {t}, I t → c.IsOf u N t) (ht : I s.tables) (hs : I s.saved) :
    I (s.perform now c).2.tables ∧ I (s.perform now c).2.saved :=
  Store.perform_keeps (fun e hi => h.step (hc hi) e hi) ht hs

end Kept

end LabelPlaylists.Library
