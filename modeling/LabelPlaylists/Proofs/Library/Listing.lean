import LabelPlaylists.Library.Query
import LabelPlaylists.Proofs.Library.Integrity
import Mathlib.Data.List.Nodup
import Mathlib.Data.List.Perm.Basic

namespace LabelPlaylists.Library

theorem Track.precedes_iff {a b : Track} :
    a.precedes b ↔ b.addedAt < a.addedAt ∨ a.addedAt = b.addedAt ∧ b.id ≤ a.id := by
  simp [precedes]

theorem Track.precedes_trans (a b c : Track) (hab : a.precedes b) (hbc : b.precedes c) :
    a.precedes c := by
  rw [precedes_iff] at *
  rcases hab with hab | ⟨hab, h⟩ <;> rcases hbc with hbc | ⟨hbc, h'⟩
  · exact .inl (String.lt_trans hbc hab)
  · exact .inl (hbc ▸ hab)
  · exact .inl (hab ▸ hbc)
  · exact .inr ⟨hab.trans hbc, Int.le_trans h' h⟩

theorem Track.precedes_total (a b : Track) : a.precedes b || b.precedes a := by
  rw [Bool.or_eq_true, precedes_iff, precedes_iff]
  by_cases ha : a.addedAt < b.addedAt
  case pos => exact .inr (.inl ha)
  case neg =>
    by_cases hb : b.addedAt < a.addedAt
    case pos => exact .inl (.inl hb)
    case neg =>
      have he : a.addedAt = b.addedAt := String.le_antisymm hb ha
      rcases Int.le_total b.id a.id with h | h
      · exact .inl (.inr ⟨he, h⟩)
      · exact .inr (.inr ⟨he.symm, h⟩)

namespace Tables

variable {t : Tables}

theorem mem_listed {tracks : List Track} {r : Track} : r ∈ listed tracks ↔ r ∈ tracks :=
  (List.mergeSort_perm tracks _).mem_iff

theorem nodup_listed {tracks : List Track} (h : (tracks.map (·.id)).Nodup) :
    ((listed tracks).map (·.id)).Nodup :=
  ((List.mergeSort_perm tracks _).map _).nodup_iff.mpr h

-- Of tracks with different numbers the newest favorite comes first, then the one stored last.
theorem pairwise_listed {tracks : List Track} (h : (tracks.map (·.id)).Nodup) :
    (listed tracks).Pairwise fun a b =>
      b.addedAt < a.addedAt ∨ a.addedAt = b.addedAt ∧ b.id < a.id := by
  have ho := List.pairwise_mergeSort Track.precedes_trans Track.precedes_total tracks
  have hn : (listed tracks).Pairwise fun a b => a.id ≠ b.id :=
    List.pairwise_map.mp (nodup_listed h)
  refine (ho.and hn).imp fun {a b} ⟨hp, hne⟩ => ?_
  rcases Track.precedes_iff.mp hp with h | ⟨h, hle⟩
  · exact .inl h
  · exact .inr ⟨h, Int.lt_iff_le_and_ne.mpr ⟨hle, hne.symm⟩⟩

-- A row is found by its key.
theorem find?_key_iff {rows : List α} {key : α → Option β} [DecidableEq β] {k : β} {a : α}
    (h : (rows.filterMap key).Nodup) :
    rows.find? (key · = some k) = some a ↔ a ∈ rows ∧ key a = some k := by
  induction rows
  case nil => simp
  case cons r rest hi =>
    by_cases hk : key r = some k
    case neg =>
      have hn : (rest.filterMap key).Nodup :=
        h.sublist ((List.sublist_cons_self r rest).filterMap key)
      rw [List.find?_cons_of_neg (by simpa using hk), hi hn, List.mem_cons]
      refine and_congr_left fun hr => (or_iff_right fun he => hk ?_).symm
      rw [← he, hr]
    case pos =>
      rw [List.filterMap_cons_some hk, List.nodup_cons] at h
      rw [List.find?_cons_of_pos (by simpa using hk), Option.some.injEq, List.mem_cons]
      constructor
      case mp => exact fun he => ⟨.inl he.symm, he ▸ hk⟩
      case mpr =>
        rintro ⟨rfl | hm, hr⟩
        · rfl
        · exact absurd (List.mem_filterMap.mpr ⟨a, hm, hr⟩) h.left

theorem artist?_eq_some_iff (h : t.Sound) {id : String} {a : Artist} :
    t.artist? id = some a ↔ a ∈ t.artists ∧ a.id = some id :=
  find?_key_iff h.artists

theorem album?_eq_some_iff (h : t.Sound) {id : String} {a : Album} :
    t.album? id = some a ↔ a ∈ t.albums ∧ a.id = some id :=
  find?_key_iff h.albums

theorem label?_eq_some_iff (h : t.Sound) {id : Int} {l : Label} :
    t.label? id = some l ↔ l ∈ t.labels ∧ l.id = id := by
  have hn : (t.labels.filterMap fun l => some l.id).Nodup := by
    rw [List.filterMap_eq_map']
    exact h.labels
  simpa [label?] using find?_key_iff (k := id) (a := l) hn

theorem Sound.nodup_filter (h : t.Sound) (p : Track → Bool) :
    ((t.tracks.filter p).map (·.id)).Nodup :=
  h.tracks.sublist (List.filter_sublist.map _)

theorem Sound.albumOf {r : Track} (h : t.Sound) (hr : r ∈ t.tracks) :
    ∃ a ∈ t.albums, a.id = some r.albumId :=
  List.mem_map.mp (h.trackAlbums (List.mem_map_of_mem (f := fun r => some r.albumId) hr))

-- The artists of a track, one for every credit.
def credited (t : Tables) (trackId : Int) : List Artist :=
  t.credits.filterMap fun c => if c.trackId = trackId then t.artist? c.artistId else none

-- The labels that a track carries and that have no criteria.
def carried (t : Tables) (trackId : Int) : List Label :=
  t.memberships.filterMap fun m =>
    if m.trackId = trackId then (t.label? m.labelId).filter (·.criteria.isNone) else none

theorem mem_credited (h : t.Sound) {k : Int} {a : Artist} :
    a ∈ t.credited k ↔ a ∈ t.artistsOf k := by
  simp only [credited, artistsOf, List.mem_filterMap, List.mem_filter, List.any_eq_true,
    Bool.and_eq_true, decide_eq_true_eq, Option.ite_none_right_eq_some, artist?_eq_some_iff h]
  constructor
  case mp  => exact fun ⟨c, hc, hk, ha, hi⟩ => ⟨ha, c, hc, hk, hi⟩
  case mpr => exact fun ⟨ha, c, hc, hk, hi⟩ => ⟨c, hc, hk, ha, hi⟩

theorem mem_carried (h : t.Sound) {k : Int} {l : Label} :
    l ∈ t.carried k ↔ l ∈ t.staticLabelsOf k := by
  simp only [carried, staticLabelsOf, List.mem_filterMap, List.mem_filter, Bool.and_eq_true,
    Option.ite_none_right_eq_some, Option.filter_eq_some_iff, label?_eq_some_iff h,
    List.contains_iff_mem]
  constructor
  case mp  =>
    rintro ⟨⟨_, _⟩, hm, rfl, ⟨hl, rfl⟩, hc⟩
    exact ⟨hl, hc, hm⟩
  case mpr => exact fun ⟨hl, hc, hm⟩ => ⟨_, hm, rfl, ⟨hl, rfl⟩, hc⟩

-- No artist is credited twice for a track.
theorem credited_perm (h : t.Sound) (k : Int) : (t.credited k).Perm (t.artistsOf k) := by
  have hn : (t.credited k).Nodup := by
    refine h.credits.filterMap fun c c' a hc hc' => ?_
    simp only [Option.mem_def, Option.ite_none_right_eq_some, artist?_eq_some_iff h] at hc hc'
    have ⟨ht, _, hi⟩ := hc
    have ⟨ht', _, hi'⟩ := hc'
    have hi : c.artistId = c'.artistId := Option.some.inj (hi.symm.trans hi')
    cases c
    cases c'
    simp_all
  have hn' : (t.artistsOf k).Nodup := by
    have ha := (List.pairwise_filterMap.mp h.artists).filter fun a =>
      t.credits.any fun c => c.trackId = k && a.id = some c.artistId
    refine ha.imp_of_mem fun {a b} hm _ hd he => ?_
    have ⟨_, hm⟩ := List.mem_filter.mp hm
    have ⟨c, _, hc⟩ := List.any_eq_true.mp hm
    have hi : a.id = some c.artistId := by simp_all
    exact hd _ hi _ (he ▸ hi) rfl
  exact (List.perm_ext_iff_of_nodup hn hn').mpr fun _ => mem_credited h

end Tables

end LabelPlaylists.Library
