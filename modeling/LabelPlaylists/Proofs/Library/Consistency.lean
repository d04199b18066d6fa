import LabelPlaylists.Proofs.Library.Undone

namespace LabelPlaylists.Library

-- Rows that refer to rows that are there refer to one each if the keys of those differ.

theorem existsUnique_key {rows : List α} {others : List β} {reference : α → γ} {key : β → Option γ}
    [DecidableEq γ] (h : (others.filterMap key).Nodup)
    (hs : (rows.map fun r => some (reference r)) ⊆ others.map key) :
    ∀ r ∈ rows, ∃! a, a ∈ others ∧ key a = some (reference r) := by
  intro r hr
  have ⟨a, hm, ha⟩ := List.mem_map.mp (hs (List.mem_map_of_mem hr))
  refine ⟨a, ⟨hm, ha⟩, fun b hb => ?_⟩
  have hf := (Tables.find?_key_iff h).mpr ⟨hm, ha⟩
  exact Option.some.inj (((Tables.find?_key_iff h).mpr hb).symm.trans hf)

theorem existsUnique_number {rows : List α} {others : List β} {reference : α → Int} {number : β → Int}
    (h : (others.map number).Nodup) (hs : rows.map reference ⊆ others.map number) :
    ∀ r ∈ rows, ∃! a, a ∈ others ∧ number a = reference r := by
  intro r hr
  have ⟨a, hm, ha⟩ := List.mem_map.mp (hs (List.mem_map_of_mem hr))
  exact ⟨a, ⟨hm, ha⟩, fun b hb => List.inj_on_of_nodup_map h hb.left hm (hb.right.trans ha.symm)⟩

namespace Tables

-- Tables in which
-- 1. every row refers to rows that are there, each to just one
-- 2. no two rows share what must be unique
structure Consistent (t : Tables) : Prop where
  trackUser       : ∀ r ∈ t.tracks, ∃! u, u ∈ t.users ∧ u.id = r.userId
  trackAlbum      : ∀ r ∈ t.tracks, ∃! a, a ∈ t.albums ∧ a.id = some r.albumId
  creditTrack     : ∀ c ∈ t.credits, ∃! r, r ∈ t.tracks ∧ r.id = c.trackId
  creditArtist    : ∀ c ∈ t.credits, ∃! a, a ∈ t.artists ∧ a.id = some c.artistId
  membershipTrack : ∀ m ∈ t.memberships, ∃! r, r ∈ t.tracks ∧ r.id = m.trackId
  membershipLabel : ∀ m ∈ t.memberships, ∃! l, l ∈ t.labels ∧ l.id = m.labelId
  labelUser       : ∀ l ∈ t.labels, ∃! u, u ∈ t.users ∧ u.id = l.userId
  playlistUser    : ∀ p ∈ t.playlists, ∃! u, u ∈ t.users ∧ u.id = p.userId
  playlistLabel   : ∀ p ∈ t.playlists, ∃! l, l ∈ t.labels ∧ l.id = p.labelId
  tracks          : t.tracks.Pairwise fun r r' => ¬(r.userId = r'.userId ∧ r.spotifyId = r'.spotifyId)
  labels          : t.labels.Pairwise fun l l' => ¬(l.userId = l'.userId ∧ l.name = l'.name)
  users           : t.users.Pairwise fun u u' => u.spotifyId ≠ u'.spotifyId
  playlists       : t.playlists.Pairwise fun p p' => p.labelId ≠ p'.labelId
  credits         : t.credits.Nodup
  memberships     : t.memberships.Nodup

theorem consistent_of_sound {t : Tables} (h : t.Sound) : t.Consistent where
  trackUser       := existsUnique_number h.users h.trackUsers
  trackAlbum      := existsUnique_key h.albums h.trackAlbums
  creditTrack     := existsUnique_number h.tracks h.creditTracks
  creditArtist    := existsUnique_key h.artists h.creditArtists
  membershipTrack := existsUnique_number h.tracks h.memberTracks
  membershipLabel := existsUnique_number h.labels h.memberLabels
  labelUser       := existsUnique_number h.users h.labelUsers
  playlistUser    := existsUnique_number h.users h.playlistUsers
  playlistLabel   := existsUnique_number h.labels h.playlistsLabel
  tracks          := (List.pairwise_map.mp h.trackNames).imp fun hn he => hn (Prod.ext he.1 he.2)
  labels          := (List.pairwise_map.mp h.labelNames).imp fun hn he => hn (Prod.ext he.1 he.2)
  users           := List.pairwise_map.mp h.userNames
  playlists       := List.pairwise_map.mp h.playlistLabels
  credits         := h.credits
  memberships     := h.memberships

end Tables

namespace Store

variable {s : Store} {P : Command → Prop}

-- No operation touches the version of the layout, so the saved tables can be opened again.
theorem Reached.open?_saved (h : Reached P s) : Store.open? s.path s.saved = .ok s.reconnect := by
  have ⟨_, hv⟩ := h.invariant (I := fun t => t.version = some layoutVersion) rfl fun _ e => by
    cases e.effect <;> exact id
  simp [open?, Store.reconnect, hv]

-- Whatever operations have been performed, the tables are consistent. So are those that are saved,
-- which are found when the library is opened the next time.
theorem Reached.consistent (h : Reached P s) :
    s.tables.Consistent ∧ s.saved.Consistent ∧ Store.open? s.path s.saved = .ok s.reconnect :=
  ⟨Tables.consistent_of_sound h.sound.tables, Tables.consistent_of_sound h.sound.saved, h.open?_saved⟩

namespace Sample

-- The track that was not finished gets a label. Then a label of the same name is refused, the label
-- gets a playlist, and the library is opened again.
def events : List Event := [
  .perform noon unfinished,
  .perform noon (.addLabel (.integer 1) (.text "label") .null),
  .perform noon (.addMembership (.integer 2) (.text "1")),
  .perform noon (.addLabel (.integer 1) (.text "label") .null),
  .perform noon (.addPlaylist (.integer 1) (.integer 1) (.text "playlist")),
  .reconnect
]

theorem events_reached : Reached (fun _ => True) (library.after events) :=
  (library_reached.mono fun _ _ => trivial).after (by simp [events, Event.Meets])

end Sample

theorem Reached.consistent_events :
    Reached (fun _ => True) (Sample.library.after Sample.events) ∧
      (Sample.library.after Sample.events).tables.Consistent ∧
      (Sample.library.after Sample.events).tables.credits = [⟨1, "artist"⟩, ⟨2, "artist"⟩] ∧
      (Sample.library.after Sample.events).tables.memberships = [⟨2, 1⟩] ∧
      (Sample.library.after Sample.events).tables.playlists = [⟨1, 1, 1, "playlist"⟩] :=
  ⟨Sample.events_reached, Sample.events_reached.consistent.left, by decide +kernel, by decide +kernel,
    by decide +kernel⟩

end Store

end LabelPlaylists.Library
