import LabelPlaylists.Proofs.Library.Answer
import LabelPlaylists.Proofs.Library.Effect
import LabelPlaylists.Proofs.Library.Listing
import LabelPlaylists.Proofs.Library.Settled

namespace LabelPlaylists.Library

namespace Tables

variable {t t' t'' : Tables}

-- All but users and playlists.
def others (t : Tables) : Tables := { t with users := [], playlists := [], lastPlaylist := 0 }

-- Tables that differ in nothing but their playlists and the tokens and pictures of users.
structure Matches (t t' : Tables) : Prop where
  users  : t'.users.map (fun v => (v.id, v.spotifyId)) = t.users.map fun v => (v.id, v.spotifyId)
  others : t'.others = t.others

namespace Matches

theorem refl : t.Matches t := ⟨rfl, rfl⟩

theorem trans (h : t.Matches t') (h' : t'.Matches t'') : t.Matches t'' :=
  ⟨h'.users.trans h.users, h'.others.trans h.others⟩

theorem labels (h : t.Matches t') : t'.labels = t.labels :=
  (congrArg Tables.labels h.others :)

theorem tracks (h : t.Matches t') : t'.tracks = t.tracks :=
  (congrArg Tables.tracks h.others :)

theorem memberships (h : t.Matches t') : t'.memberships = t.memberships :=
  (congrArg Tables.memberships h.others :)

theorem userIds (h : t.Matches t') : t'.users.map (·.id) = t.users.map (·.id) := by
  have hu := congrArg (List.map Prod.fst) h.users
  rwa [List.map_map, List.map_map] at hu

-- New tokens change nothing else.
theorem of_setTokens {v w x : Datum} {expiresAt now : String} {n : Nat}
    (h : t.setTokens v w expiresAt x now = .ok (t', n)) : t.Matches t' ∧ t'.playlists = t.playlists := by
  unfold setTokens at h
  split at h
  case h_1 => cases h; exact ⟨.refl, rfl⟩
  case h_2 =>
    simp only [bind_eq_ok_iff] at h
    obtain ⟨_, _, h⟩ := h
    cases h
    exact ⟨⟨map_map_if fun _ => rfl, rfl⟩, rfl⟩

end Matches

theorem mem_labelsWithoutPlaylist {u : Int} {l : Label} :
    l ∈ t.labelsWithoutPlaylist (.integer u) ↔
      l ∈ t.labels ∧ l.userId = u ∧ l.id ∉ t.playlists.map (·.labelId) := by
  have hn : (t.playlistOf? l.id).isNone ↔ l.id ∉ t.playlists.map (·.labelId) := by
    rw [← playlistOf?_isSome_iff, Option.isNone_iff_eq_none, Option.not_isSome_iff_eq_none]
  simp only [labelsWithoutPlaylist, Datum.whole?, List.mem_filter, Bool.and_eq_true,
    decide_eq_true_eq, hn]

theorem nodup_labelsWithoutPlaylist (h : t.Sound) {u : Int} :
    ((t.labelsWithoutPlaylist (.integer u)).map (·.id)).Nodup :=
  h.labels.sublist (List.filter_sublist.map _)

-- A playlist is listed with its label.
theorem mem_playlistsOf (h : t.Sound) {u : Int} {v : PlaylistView} :
    v ∈ t.playlistsOf (.integer u) ↔
      ∃ p ∈ t.playlists, p.userId = u ∧ ∃ l ∈ t.labels, l.id = p.labelId ∧
        v = ⟨p.id, p.spotifyId, l.id, l.name, l.criteria⟩ := by
  simp only [playlistsOf, Datum.whole?, List.mem_filterMap, List.mem_filter, decide_eq_true_eq,
    Option.map_eq_some_iff, label?_eq_some_iff h, and_assoc]
  grind

-- Playlists with different ids are listed with different ids.
theorem nodup_playlistsOf {user : Datum} (h : (t.playlists.map (·.spotifyId)).Nodup) :
    ((t.playlistsOf user).map (·.spotifyId)).Nodup := by
  unfold playlistsOf
  split
  case h_1 => exact .nil
  case h_2 userId _ =>
    have hp := (List.pairwise_map.mp h).filter fun p => p.userId = userId
    refine List.pairwise_map.mpr (hp.filterMap _ fun p p' hne v hv v' hv' => ?_)
    have ⟨_, _, hv⟩ := Option.map_eq_some_iff.mp hv
    have ⟨_, _, hv'⟩ := Option.map_eq_some_iff.mp hv'
    rwa [← hv, ← hv']

theorem Matches.playlistsOf (h : t.Matches t') (hp : t'.playlists = t.playlists) {user : Datum} :
    t'.playlistsOf user = t.playlistsOf user := by
  unfold Tables.playlistsOf label?
  rw [hp, h.labels]

theorem Matches.labelsWithoutPlaylist (h : t.Matches t') (hp : t'.playlists = t.playlists) {user : Datum} :
    t'.labelsWithoutPlaylist user = t.labelsWithoutPlaylist user := by
  unfold Tables.labelsWithoutPlaylist playlistOf?
  rw [hp, h.labels]

end Tables

namespace Store

variable {s : Store} {c : Command} {f : Tables → c.Reply} {now : Moment} {k : Int}

-- An operation that just asks about a row is answered from the tables, if the store can hold its number.
theorem perform_asking (hw : work now c = do Work.bound [.integer k]; return f (← Work.current)) :
    (Datum.IsStorable k ∧ s.perform now c = (.ok (f s.tables), s)) ∨
      (¬Datum.IsStorable k ∧ s.perform now c = (.error .numberTooLarge, s)) := by
  by_cases hk : Datum.IsStorable k
  case pos =>
    refine .inl ⟨hk, perform_ok ?_⟩
    rw [hw]
    exact Work.bind_ok (Work.bound_ok (by simpa using hk) s)
  case neg =>
    have hb : Work.bound [.integer k] s = (.error .numberTooLarge, s) := by
      simp [Work.bound, Work.refusal?, hk]
    refine .inr ⟨hk, ?_⟩
    unfold perform
    rw [hw]
    simp [bind, Work.bind, hb]

-- A label that has no playlist gets one.
theorem perform_addPlaylist (now : Moment) {u l : Int} (id : String) (hu : Datum.IsStorable u)
    (hl : Datum.IsStorable l) (hm : u ∈ s.tables.users.map (·.id)) (hk : l ∈ s.tables.labels.map (·.id))
    (hn : l ∉ s.tables.playlists.map (·.labelId)) :
    ∃ s', s.perform now (.addPlaylist (.integer u) (.integer l) (.text id))
        = (.ok (s.tables.lastPlaylist + 1), s') ∧
      s'.tables = { s.tables with
        playlists    := s.tables.playlists ++ [⟨s.tables.lastPlaylist + 1, u, l, id⟩]
        lastPlaylist := s.tables.lastPlaylist + 1 } ∧
      s'.saved = s'.tables := by
  have ho := Option.isNone_eq_false_iff.mpr (Tables.user?_isSome_iff.mpr hm)
  have hk := Option.isNone_eq_false_iff.mpr (Tables.label?_isSome_iff.mpr hk)
  have hn : (s.tables.playlistOf? l).isSome = false := by
    simpa using mt Tables.playlistOf?_isSome_iff.mp hn
  let row : Playlist := ⟨s.tables.lastPlaylist + 1, u, l, id⟩
  let t := { s.tables with
    playlists := s.tables.playlists ++ [row], lastPlaylist := s.tables.lastPlaylist + 1 }
  have ht : s.tables.addPlaylist (.integer u) (.integer l) (.text id) = .ok (t, 1) := by
    simp [Tables.addPlaylist, requiredReference, required, Datum.text?, Datum.whole?, bind, Except.bind,
      hn, ho, hk, t, row]
  have hv : ∀ v ∈ [.integer u, .integer l, .text id], Accepts v := by simp [hu, hl]
  refine ⟨{ s with saved := t, tables := t, changes := s.changes + 1 }, perform_ok ?_, rfl, rfl⟩
  rw [work, Work.bind_ok (Work.bound_ok hv s), Work.bind_ok (Work.change_ok ht)]
  rfl

end Store

end LabelPlaylists.Library
