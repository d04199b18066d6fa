import LabelPlaylists.Proofs.Library.Effect
import Mathlib.Data.List.Nodup

namespace LabelPlaylists.Library

-- What the layout of the library demands of its tables:
-- 1. the keys of a table differ from row to row, and so do the names that must be unique
-- 2. a row only refers to rows that are there
-- 3. numbers are given out in ascending order, from 1 on
structure Tables.Sound (t : Tables) : Prop where
  users           : (t.users.map (·.id)).Nodup
  userNames       : (t.users.map (·.spotifyId)).Nodup
  userNumbers     : ∀ u ∈ t.users, 0 < u.id ∧ u.id ≤ t.lastUser
  albums          : (t.albums.filterMap (·.id)).Nodup
  artists         : (t.artists.filterMap (·.id)).Nodup
  tracks          : (t.tracks.map (·.id)).Nodup
  trackNames      : (t.tracks.map fun r => (r.userId, r.spotifyId)).Nodup
  trackNumbers    : ∀ r ∈ t.tracks, 0 < r.id ∧ r.id ≤ t.lastTrack
  trackUsers      : t.tracks.map (·.userId) ⊆ t.users.map (·.id)
  trackAlbums     : (t.tracks.map fun r => some r.albumId) ⊆ t.albums.map (·.id)
  credits         : t.credits.Nodup
  creditTracks    : t.credits.map (·.trackId) ⊆ t.tracks.map (·.id)
  creditArtists   : (t.credits.map fun c => some c.artistId) ⊆ t.artists.map (·.id)
  labels          : (t.labels.map (·.id)).Nodup
  labelNames      : (t.labels.map fun l => (l.userId, l.name)).Nodup
  labelNumbers    : ∀ l ∈ t.labels, 0 < l.id ∧ l.id ≤ t.lastLabel
  labelUsers      : t.labels.map (·.userId) ⊆ t.users.map (·.id)
  memberships     : t.memberships.Nodup
  memberTracks    : t.memberships.map (·.trackId) ⊆ t.tracks.map (·.id)
  memberLabels    : t.memberships.map (·.labelId) ⊆ t.labels.map (·.id)
  playlists       : (t.playlists.map (·.id)).Nodup
  playlistLabels  : (t.playlists.map (·.labelId)).Nodup
  playlistNumbers : ∀ p ∈ t.playlists, 0 < p.id ∧ p.id ≤ t.lastPlaylist
  playlistUsers   : t.playlists.map (·.userId) ⊆ t.users.map (·.id)
  playlistsLabel  : t.playlists.map (·.labelId) ⊆ t.labels.map (·.id)
  counters        : 0 ≤ t.lastUser ∧ 0 ≤ t.lastTrack ∧ 0 ≤ t.lastLabel ∧ 0 ≤ t.lastPlaylist

-- A list of rows with one more row of a new key.
theorem nodup_map_append_singleton {rows : List α} {row : α} {key : α → β}
    (h : (rows.map key).Nodup) (hk : key row ∉ rows.map key) : ((rows ++ [row]).map key).Nodup := by
  rw [List.map_append, List.map_singleton]
  exact h.append (List.nodup_singleton _) (by simpa using hk)

theorem map_append_singleton_subset {rows : List α} {row : α} {key : α → β} {keys : List β}
    (h : rows.map key ⊆ keys) (hk : key row ∈ keys) : (rows ++ [row]).map key ⊆ keys := by
  simp only [List.map_append, List.map_singleton, List.append_subset]
  exact ⟨h, by simpa using hk⟩

theorem map_subset_map_append {rows more : List α} {key : α → β} {keys : List β}
    (h : keys ⊆ rows.map key) : keys ⊆ (rows ++ more).map key := by
  simp only [List.map_append]
  exact List.Subset.trans h (List.subset_append_left _ _)

namespace Tables.Sound

variable {t t' : Tables} {n : Nat}

-- A new number is greater than all that have been given out.
theorem succ_notMem {rows : List α} {number : α → Int} {last : Int}
    (h : ∀ r ∈ rows, 0 < number r ∧ number r ≤ last) : last + 1 ∉ rows.map number := by
  intro hm
  have ⟨r, hr, he⟩ := List.mem_map.mp hm
  have := h r hr
  omega

theorem numbers_append {rows : List α} {row : α} {number : α → Int} {last : Int}
    (h : ∀ r ∈ rows, 0 < number r ∧ number r ≤ last) (hl : 0 ≤ last) (hr : number row = last + 1) :
    ∀ r ∈ rows ++ [row], 0 < number r ∧ number r ≤ last + 1 := by
  intro r hm
  rcases List.mem_append.mp hm with hm | hm
  case inl => have := h r hm; omega
  case inr => rw [List.mem_singleton.mp hm]; omega

theorem addUser (h : t.Sound) {u : User} (hu : u.id = t.lastUser + 1)
    (hn : u.spotifyId ∉ t.users.map (·.spotifyId)) :
    { t with users := t.users ++ [u], lastUser := t.lastUser + 1 }.Sound :=
  { h with
    users         := nodup_map_append_singleton h.users (hu ▸ succ_notMem h.userNumbers)
    userNames     := nodup_map_append_singleton h.userNames hn
    userNumbers   := numbers_append h.userNumbers h.counters.left hu
    trackUsers    := map_subset_map_append h.trackUsers
    labelUsers    := map_subset_map_append h.labelUsers
    playlistUsers := map_subset_map_append h.playlistUsers
    counters      := ⟨by have := h.counters.left; dsimp; omega, h.counters.right⟩ }

-- Users may change in all but their numbers and names.
theorem changeUsers (h : t.Sound) {f : User → User} (hf : ∀ u, (f u).id = u.id)
    (hn : ∀ u, (f u).spotifyId = u.spotifyId) (hl : t.lastUser ≤ l) :
    { t with users := t.users.map f, lastUser := l }.Sound := by
  have hi : (t.users.map f).map (·.id) = t.users.map (·.id) := by simp [hf]
  have hs : (t.users.map f).map (·.spotifyId) = t.users.map (·.spotifyId) := by simp [hn]
  exact
    { h with
      users         := hi ▸ h.users
      userNames     := hs ▸ h.userNames
      userNumbers   := by
        intro u hm
        have ⟨v, hv, he⟩ := List.mem_map.mp hm
        have := h.userNumbers v hv
        rw [← he, hf]
        dsimp
        omega
      trackUsers    := hi ▸ h.trackUsers
      labelUsers    := hi ▸ h.labelUsers
      playlistUsers := hi ▸ h.playlistUsers
      counters      := ⟨by have := h.counters.left; dsimp; omega, h.counters.right⟩ }

-- Rows without a key may be added at any time, others if their key is new.
theorem nodup_filterMap_append_singleton {rows : List α} {row : α} {key : α → Option β}
    (h : (rows.filterMap key).Nodup) (hk : key row ∉ rows.map key ∨ key row = none) :
    ((rows ++ [row]).filterMap key).Nodup := by
  rw [List.filterMap_append]
  cases hr : key row
  case none   => simpa [hr] using h
  case some k =>
    have hn : some k ∉ rows.map key := by simpa [hr] using hk
    simp only [List.filterMap_cons, hr, List.filterMap_nil]
    refine h.append (List.nodup_singleton _) ?_
    simp only [List.disjoint_singleton, List.mem_filterMap, not_exists, not_and]
    exact fun r hm he => hn (List.mem_map.mpr ⟨r, hm, he⟩)

theorem addAlbum (h : t.Sound) {a : Album} (ha : a.id ∉ t.albums.map (·.id) ∨ a.id = none) :
    { t with albums := t.albums ++ [a] }.Sound :=
  { h with
    albums      := nodup_filterMap_append_singleton h.albums ha
    trackAlbums := map_subset_map_append h.trackAlbums }

theorem addArtist (h : t.Sound) {a : Artist} (ha : a.id ∉ t.artists.map (·.id) ∨ a.id = none) :
    { t with artists := t.artists ++ [a] }.Sound :=
  { h with
    artists       := nodup_filterMap_append_singleton h.artists ha
    creditArtists := map_subset_map_append h.creditArtists }

theorem addTrack (h : t.Sound) {r : Track} (hr : r.id = t.lastTrack + 1)
    (hn : (r.userId, r.spotifyId) ∉ t.tracks.map fun r => (r.userId, r.spotifyId))
    (hu : r.userId ∈ t.users.map (·.id)) (ha : some r.albumId ∈ t.albums.map (·.id)) :
    { t with tracks := t.tracks ++ [r], lastTrack := t.lastTrack + 1 }.Sound :=
  { h with
    tracks       := nodup_map_append_singleton h.tracks (hr ▸ succ_notMem h.trackNumbers)
    trackNames   := nodup_map_append_singleton h.trackNames hn
    trackNumbers := numbers_append h.trackNumbers h.counters.right.left hr
    trackUsers   := map_append_singleton_subset h.trackUsers hu
    trackAlbums  := map_append_singleton_subset h.trackAlbums ha
    creditTracks := map_subset_map_append h.creditTracks
    memberTracks := map_subset_map_append h.memberTracks
    counters     := ⟨h.counters.left, by have := h.counters.right; dsimp; omega⟩ }

theorem addCredit (h : t.Sound) {c : Credit} (hn : c ∉ t.credits)
    (hr : c.trackId ∈ t.tracks.map (·.id)) (ha : some c.artistId ∈ t.artists.map (·.id)) :
    { t with credits := t.credits ++ [c] }.Sound :=
  { h with
    credits       := h.credits.append (List.nodup_singleton _) (by simpa using hn)
    creditTracks  := map_append_singleton_subset h.creditTracks hr
    creditArtists := map_append_singleton_subset h.creditArtists ha }

theorem addLabel (h : t.Sound) {l : Label} (hl : l.id = t.lastLabel + 1)
    (hn : (l.userId, l.name) ∉ t.labels.map fun l => (l.userId, l.name))
    (hu : l.userId ∈ t.users.map (·.id)) :
    { t with labels := t.labels ++ [l], lastLabel := t.lastLabel + 1 }.Sound :=
  { h with
    labels         := nodup_map_append_singleton h.labels (hl ▸ succ_notMem h.labelNumbers)
    labelNames     := nodup_map_append_singleton h.labelNames hn
    labelNumbers   := numbers_append h.labelNumbers h.counters.right.right.left hl
    labelUsers     := map_append_singleton_subset h.labelUsers hu
    memberLabels   := map_subset_map_append h.memberLabels
    playlistsLabel := map_subset_map_append h.playlistsLabel
    counters       := ⟨h.counters.left, by have := h.counters.right; dsimp; omega⟩ }

-- Labels may change in all but their numbers, owners and names.
theorem changeLabels (h : t.Sound) {f : Label → Label} (hf : ∀ l, (f l).id = l.id)
    (hu : ∀ l, (f l).userId = l.userId) (hn : ∀ l, (f l).name = l.name) :
    { t with labels := t.labels.map f }.Sound := by
  have hi : (t.labels.map f).map (·.id) = t.labels.map (·.id) := by simp [hf]
  have ho : (t.labels.map f).map (·.userId) = t.labels.map (·.userId) := by simp [hu]
  have hs : (t.labels.map f).map (fun l => (l.userId, l.name))
      = t.labels.map fun l => (l.userId, l.name) := by simp [hu, hn]
  exact
    { h with
      labels         := hi ▸ h.labels
      labelNames     := hs ▸ h.labelNames
      labelNumbers   := by
        intro l hm
        have ⟨k, hk, he⟩ := List.mem_map.mp hm
        rw [← he, hf]
        exact h.labelNumbers k hk
      labelUsers     := ho ▸ h.labelUsers
      memberLabels   := hi ▸ h.memberLabels
      playlistsLabel := hi ▸ h.playlistsLabel }

theorem addMembership (h : t.Sound) {m : Membership} (hn : m ∉ t.memberships)
    (hr : m.trackId ∈ t.tracks.map (·.id)) (hl : m.labelId ∈ t.labels.map (·.id)) :
    { t with memberships := t.memberships ++ [m] }.Sound :=
  { h with
    memberships  := h.memberships.append (List.nodup_singleton _) (by simpa using hn)
    memberTracks := map_append_singleton_subset h.memberTracks hr
    memberLabels := map_append_singleton_subset h.memberLabels hl }

theorem filterMemberships (h : t.Sound) (p : Membership → Bool) :
    { t with memberships := t.memberships.filter p }.Sound :=
  { h with
    memberships  := h.memberships.filter p
    memberTracks := List.Subset.trans (List.map_subset _ (List.filter_subset_self _)) h.memberTracks
    memberLabels := List.Subset.trans (List.map_subset _ (List.filter_subset_self _)) h.memberLabels }

theorem addPlaylist (h : t.Sound) {p : Playlist} (hp : p.id = t.lastPlaylist + 1)
    (hn : p.labelId ∉ t.playlists.map (·.labelId)) (hu : p.userId ∈ t.users.map (·.id))
    (hl : p.labelId ∈ t.labels.map (·.id)) :
    { t with playlists := t.playlists ++ [p], lastPlaylist := t.lastPlaylist + 1 }.Sound :=
  { h with
    playlists       := nodup_map_append_singleton h.playlists (hp ▸ succ_notMem h.playlistNumbers)
    playlistLabels  := nodup_map_append_singleton h.playlistLabels hn
    playlistNumbers := numbers_append h.playlistNumbers h.counters.right.right.right hp
    playlistUsers   := map_append_singleton_subset h.playlistUsers hu
    playlistsLabel  := map_append_singleton_subset h.playlistsLabel hl
    counters        := ⟨h.counters.left, by have := h.counters.right; dsimp; omega⟩ }

end Tables.Sound

theorem Command.Effect.sound {c : Command} {t t' : Tables} (e : c.Effect t t') (h : t.Sound) :
    t'.Sound := by
  cases e
  case nothing             => exact h
  case newUser hn          => exact h.addUser rfl hn
  case knownUser           =>
    exact h.changeUsers (by intro u; split <;> rfl) (by intro u; split <;> rfl) (by omega)
  case tokens              =>
    exact h.changeUsers (by intro u; split <;> rfl) (by intro u; split <;> rfl) (Int.le_refl _)
  case album hi            => exact h.addAlbum hi
  case artist hi           => exact h.addArtist hi
  case track hn hu ha      => exact h.addTrack rfl hn hu ha
  case credit hn hr ha     => exact h.addCredit hn hr ha
  case label hn hu         => exact h.addLabel rfl hn hu
  case criteria            =>
    apply h.changeLabels
    all_goals
      intro l
      split <;> rfl
  case cleared             => exact h.filterMemberships _
  case membership hn hr hl => exact h.addMembership hn hr hl
  case removed             => exact h.filterMemberships _
  case playlist hn hu hl   => exact h.addPlaylist rfl hn hu hl

theorem Tables.Sound.empty : Tables.Sound { version := some layoutVersion } := by
  constructor <;> simp

namespace Store

-- A store with tables as their layout demands them, in use and saved.
structure Sound (s : Store) : Prop where
  tables : s.tables.Sound
  saved  : s.saved.Sound

theorem Sound.perform {s : Store} (h : s.Sound) : (s.perform now c).2.Sound :=
  have ⟨ht, hs⟩ := perform_keeps (fun e => e.effect.sound) h.tables h.saved
  ⟨ht, hs⟩

theorem Reached.sound {P : Command → Prop} {s : Store} (h : Reached P s) : s.Sound :=
  have ⟨ht, hs⟩ := h.invariant Tables.Sound.empty fun _ e => e.effect.sound
  ⟨ht, hs⟩

end Store

end LabelPlaylists.Library
