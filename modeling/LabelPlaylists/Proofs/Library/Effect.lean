import LabelPlaylists.Proofs.Library.Step

namespace LabelPlaylists.Library

namespace Tables

variable {t : Tables}

theorem user?_isSome_iff {id : Int} : (t.user? id).isSome ↔ id ∈ t.users.map (·.id) := by
  simp [user?]

theorem userNamed?_isSome_iff {s : String} :
    (t.userNamed? s).isSome ↔ s ∈ t.users.map (·.spotifyId) := by
  simp [userNamed?]

theorem album?_isSome_iff {id : String} : (t.album? id).isSome ↔ some id ∈ t.albums.map (·.id) := by
  simp [album?]

theorem artist?_isSome_iff {id : String} :
    (t.artist? id).isSome ↔ some id ∈ t.artists.map (·.id) := by
  simp [artist?]

theorem track?_isSome_iff {id : Int} : (t.track? id).isSome ↔ id ∈ t.tracks.map (·.id) := by
  simp [track?]

theorem trackOf?_isSome_iff {u : Int} {s : String} :
    (t.trackOf? u s).isSome ↔ (u, s) ∈ t.tracks.map fun r => (r.userId, r.spotifyId) := by
  simp [trackOf?]

theorem label?_isSome_iff {id : Int} : (t.label? id).isSome ↔ id ∈ t.labels.map (·.id) := by
  simp [label?]

theorem labelNamed?_isSome_iff {u : Int} {s : String} :
    (t.labelNamed? u s).isSome ↔ (u, s) ∈ t.labels.map fun l => (l.userId, l.name) := by
  simp [labelNamed?]

theorem playlistOf?_isSome_iff {l : Int} :
    (t.playlistOf? l).isSome ↔ l ∈ t.playlists.map (·.labelId) := by
  simp [playlistOf?]

end Tables

-- The rows that a change refers to have been found.
theorem isSome_of_not_isNone {a : Option α} {b : Option β} (h : ¬(a.isNone ∨ b.isNone)) :
    a.isSome ∧ b.isSome := by
  cases a <;> cases b <;> simp_all

theorem notMem_or_eq_none {rows : List α} {key : α → Option String} {k : Option String}
    (h : ¬(k.isSome ∧ rows.any (key · = k))) : k ∉ rows.map key ∨ k = none := by
  cases k <;> simp_all

-- All that a single change may do to the tables:
-- 1. leave them as they are
-- 2. add a row of a new key and a new number, for which the rows it refers to are there
-- 3. change rows of users or labels in all but their keys
-- 4. take memberships away
inductive Command.Effect : Command → Tables → Tables → Prop
  | nothing : Effect c t t
  | newUser {v m} :
    v.spotifyId.text? = some name → v.accessToken.text? = some access →
    v.refreshToken.text? = some refresh → name ∉ t.users.map (·.spotifyId) →
    Effect (.putUser v m) t
      { t with
        users    := t.users ++
          [⟨t.lastUser + 1, name, v.avatarUrl.text?, access, refresh, expiresAt, now, now⟩]
        lastUser := t.lastUser + 1 }
  | knownUser {v m} :
    v.spotifyId.text? = some name → v.accessToken.text? = some access →
    v.refreshToken.text? = some refresh → name ∈ t.users.map (·.spotifyId) →
    Effect (.putUser v m) t
      { t with
        users    := t.users.map fun u =>
          if u.spotifyId = name then
            { u with
              avatarUrl := v.avatarUrl.text?, accessToken := access, refreshToken := refresh,
              expiresAt, updatedAt := now }
          else u
        lastUser := t.lastUser + 1 }
  | tokens {d a m w} :
    d.whole? = some k → a.text? = some access →
    Effect (.setTokens d a m w) t
      { t with
        users := t.users.map fun u =>
          if u.id = k then
            { u with
              accessToken := access, expiresAt, updatedAt := now,
              refreshToken := w.text?.getD u.refreshToken }
          else u }
  | album {v vs} :
    v ∈ vs → v.name.text? = some name → v.id.text? ∉ t.albums.map (·.id) ∨ v.id.text? = none →
    Effect (.addAlbums vs) t
      { t with
        albums := t.albums ++ [⟨v.id.text?, name, v.thumbnailUrl.text?, v.releasedOn.text?⟩] }
  | artist {v vs} :
    v ∈ vs → v.name.text? = some name → v.id.text? ∉ t.artists.map (·.id) ∨ v.id.text? = none →
    Effect (.addArtists vs) t { t with artists := t.artists ++ [⟨v.id.text?, name, v.genres⟩] }
  | track {d v vs} :
    d.whole? = some u → v.spotifyId.text? = some s → v.name.text? = some name →
    v.albumId.text? = some album → v.addedAt.text? = some added →
    (u, s) ∉ t.tracks.map (fun r => (r.userId, r.spotifyId)) → u ∈ t.users.map (·.id) →
    some album ∈ t.albums.map (·.id) →
    Effect (.addTrack d v vs) t
      { t with
        tracks    := t.tracks ++ [⟨t.lastTrack + 1, u, s, name, album, added, v.explicit⟩]
        lastTrack := t.lastTrack + 1 }
  | credit {d v vs} {a : Datum} :
    a ∈ vs → t.Has d k → a.text? = some s → ⟨k, s⟩ ∉ t.credits → k ∈ t.tracks.map (·.id) →
    some s ∈ t.artists.map (·.id) →
    Effect (.addTrack d v vs) t { t with credits := t.credits ++ [⟨k, s⟩] }
  | label {d n w} :
    d.whole? = some u → n.text? = some name →
    (u, name) ∉ t.labels.map (fun l => (l.userId, l.name)) → u ∈ t.users.map (·.id) →
    Effect (.addLabel d n w) t
      { t with
        labels    := t.labels ++ [⟨t.lastLabel + 1, u, name, w.text?, now⟩]
        lastLabel := t.lastLabel + 1 }
  | criteria {d w} :
    d.whole? = some k →
    Effect (.setCriteria d w) t
      { t with
        labels := t.labels.map fun l => if l.id = k then { l with criteria := w.text? } else l }
  | cleared {d w} :
    d.whole? = some k → w ≠ .null →
    Effect (.setCriteria d w) t { t with memberships := t.memberships.filter (·.labelId ≠ k) }
  | membership {d l} :
    l.whole? = some k → d.whole? = some r → ⟨r, k⟩ ∉ t.memberships → r ∈ t.tracks.map (·.id) →
    k ∈ t.labels.map (·.id) →
    Effect (.addMembership d l) t { t with memberships := t.memberships ++ [⟨r, k⟩] }
  | removed {d l} :
    l.whole? = some k → d.whole? = some r →
    Effect (.removeMembership d l) t { t with memberships := t.memberships.filter (· ≠ ⟨r, k⟩) }
  | playlist {d l v} :
    d.whole? = some u → l.whole? = some k → v.text? = some s →
    k ∉ t.playlists.map (·.labelId) → u ∈ t.users.map (·.id) → k ∈ t.labels.map (·.id) →
    Effect (.addPlaylist d l v) t
      { t with
        playlists    := t.playlists ++ [⟨t.lastPlaylist + 1, u, k, s⟩]
        lastPlaylist := t.lastPlaylist + 1 }

namespace Command.Effect

open Tables

variable {t t' : Tables} {n : Nat}

theorem of_putUser (e : t.putUser v expiresAt now = .ok (t', n)) : Effect (.putUser v m) t t' := by
  simp only [Tables.putUser, bind_eq_ok_iff, required_eq_ok_iff] at e
  obtain ⟨name, hn, access, ha, refresh, hr, e⟩ := e
  by_cases hk : (t.userNamed? name).isSome
  case pos =>
    rw [if_pos hk] at e
    cases e
    exact .knownUser hn ha hr (userNamed?_isSome_iff.mp hk)
  case neg =>
    rw [if_neg hk] at e
    cases e
    exact .newUser hn ha hr (mt userNamed?_isSome_iff.mpr hk)

theorem of_setTokens (e : t.setTokens d a expiresAt w now = .ok (t', n)) :
    Effect (.setTokens d a m w) t t' := by
  unfold Tables.setTokens at e
  split at e
  case h_1 => cases e; exact .nothing
  case h_2 old ho =>
    simp only [bind_eq_ok_iff, required_eq_ok_iff] at e
    obtain ⟨access, ha, e⟩ := e
    cases e
    have ⟨k, hk, ho⟩ := Option.bind_eq_some_iff.mp ho
    have hi : old.id = k := by simpa using List.find?_some ho
    exact .tokens (hi ▸ hk) ha

theorem of_addAlbum (hv : v ∈ vs) : Effect (.addAlbums vs) t (t.addAlbum v).1 := by
  unfold Tables.addAlbum
  split
  case h_1    => exact .nothing
  case h_2 hn =>
    split
    case isTrue     => exact .nothing
    case isFalse hi => exact .album hv hn (notMem_or_eq_none hi)

theorem of_addArtist (hv : v ∈ vs) : Effect (.addArtists vs) t (t.addArtist v).1 := by
  unfold Tables.addArtist
  split
  case h_1    => exact .nothing
  case h_2 hn =>
    split
    case isTrue     => exact .nothing
    case isFalse hi => exact .artist hv hn (notMem_or_eq_none hi)

theorem of_addTrack (e : t.addTrack d v = .ok (t', n)) : Effect (.addTrack d v vs) t t' := by
  simp only [Tables.addTrack, bind_eq_ok_iff, required_eq_ok_iff] at e
  obtain ⟨owner, ho, id, hi, name, hn, album, ha, added, hd, e⟩ := e
  cases owner <;> try cases e
  case some =>
    dsimp only at e
    split at e <;> try cases e
    case isFalse hk =>
      split at e <;> cases e
      case isFalse hr =>
        obtain ⟨hu, hr⟩ := isSome_of_not_isNone hr
        exact .track (whole?_of_requiredReference ho) hi hn ha hd (mt trackOf?_isSome_iff.mpr hk)
          (user?_isSome_iff.mp hu) (album?_isSome_iff.mp hr)

theorem of_addCredit {k : Int} (ha : a ∈ vs) (ho : t.Has d k) (e : t.addCredit k a = .ok (t', n)) :
    Effect (.addTrack d v vs) t t' := by
  unfold Tables.addCredit at e
  split at e
  case h_1    => cases e; exact .nothing
  case h_2 hi =>
    split at e
    case isTrue     => cases e; exact .nothing
    case isFalse hn =>
      split at e <;> cases e
      case isFalse hr =>
        have ⟨ht, hr⟩ := isSome_of_not_isNone hr
        exact .credit ha ho hi (mt List.contains_iff_mem.mpr hn) (track?_isSome_iff.mp ht)
          (artist?_isSome_iff.mp hr)

theorem of_addLabel (e : t.addLabel d a w now = .ok (t', n)) : Effect (.addLabel d a w) t t' := by
  simp only [Tables.addLabel, bind_eq_ok_iff, required_eq_ok_iff] at e
  obtain ⟨owner, ho, name, hn, e⟩ := e
  cases owner <;> try cases e
  case some =>
    dsimp only at e
    split at e <;> try cases e
    case isFalse hk =>
      split at e <;> cases e
      case isFalse hu =>
        have hu := Option.isSome_iff_ne_none.mpr (mt Option.isNone_iff_eq_none.mpr hu)
        exact .label (whole?_of_requiredReference ho) hn (mt labelNamed?_isSome_iff.mpr hk)
          (user?_isSome_iff.mp hu)

theorem of_setCriteria : Effect (.setCriteria d w) t (t.setCriteria d w).1 := by
  unfold Tables.setCriteria
  split
  case h_1    => exact .nothing
  case h_2 old ho =>
    have ⟨k, hk, ho⟩ := Option.bind_eq_some_iff.mp ho
    have hi : old.id = k := by simpa using List.find?_some ho
    exact .criteria (hi ▸ hk)

theorem of_clearLabel (h : w ≠ .null) : Effect (.setCriteria d w) t (t.clearLabel d).1 := by
  unfold Tables.clearLabel
  split
  case h_1    => exact .nothing
  case h_2 hk => exact .cleared hk h

theorem of_addMembership {k : Int} (hl : l.whole? = some k) (e : t.addMembership d k = .ok (t', n)) :
    Effect (.addMembership d l) t t' := by
  unfold Tables.addMembership at e
  split at e
  case isTrue  => cases e; exact .nothing
  case isFalse =>
    split at e <;> try cases e
    case h_2 hd =>
      split at e
      case isTrue     => cases e; exact .nothing
      case isFalse hn =>
        split at e <;> cases e
        case isFalse hr =>
          have ⟨ht, hr⟩ := isSome_of_not_isNone hr
          exact .membership hl hd (mt List.contains_iff_mem.mpr hn) (track?_isSome_iff.mp ht)
            (label?_isSome_iff.mp hr)

theorem of_removeMembership {k : Int} (hl : l.whole? = some k) :
    Effect (.removeMembership d l) t (t.removeMembership d k).1 := by
  unfold Tables.removeMembership
  split
  case h_1    => exact .nothing
  case h_2 hd => exact .removed hl hd

theorem of_addPlaylist (e : t.addPlaylist d l v = .ok (t', n)) :
    Effect (.addPlaylist d l v) t t' := by
  simp only [Tables.addPlaylist, bind_eq_ok_iff, required_eq_ok_iff] at e
  obtain ⟨owner, ho, carrier, hc, id, hi, e⟩ := e
  cases owner <;> cases carrier <;> dsimp only at e <;> try cases e
  case none.some => split at e <;> cases e
  case some.some =>
    split at e <;> try cases e
    case isFalse hn =>
      split at e <;> cases e
      case isFalse hr =>
        have ⟨hu, hl⟩ := isSome_of_not_isNone hr
        exact .playlist (whole?_of_requiredReference ho) (whole?_of_requiredReference hc) hi
          (mt playlistOf?_isSome_iff.mpr hn) (user?_isSome_iff.mp hu) (label?_isSome_iff.mp hl)

end Command.Effect

theorem Command.Step.effect {c : Command} {t t' : Tables} (e : c.Step t t') : c.Effect t t' := by
  cases e
  case putUser e          => exact .of_putUser e
  case setTokens e        => exact .of_setTokens e
  case addAlbum hv        => exact .of_addAlbum hv
  case addArtist hv       => exact .of_addArtist hv
  case addTrack e         => exact .of_addTrack e
  case addCredit ha ho e  => exact .of_addCredit ha ho e
  case addLabel e         => exact .of_addLabel e
  case setCriteria        => exact .of_setCriteria
  case clearLabel h       => exact .of_clearLabel h
  case addMembership hl e => exact .of_addMembership hl e
  case removeMembership h => exact .of_removeMembership h
  case addPlaylist e      => exact .of_addPlaylist e


-- The albums, artists and tracks that are there stay there, and so do users and labels, under their names.
structure Tables.Grows (t t' : Tables) : Prop where
  albums  : t.albums.map (·.id) ⊆ t'.albums.map (·.id)
  artists : t.artists.map (·.id) ⊆ t'.artists.map (·.id)
  tracks  : t.tracks.map (fun r => (r.userId, r.spotifyId))
    ⊆ t'.tracks.map fun r => (r.userId, r.spotifyId)
  users   : t.users.map (fun v => (v.id, v.spotifyId)) ⊆ t'.users.map fun v => (v.id, v.spotifyId)
  labels  : t.labels.map (fun l => (l.id, l.userId, l.name))
    ⊆ t'.labels.map fun l => (l.id, l.userId, l.name)

theorem Tables.Grows.refl {t : Tables} : t.Grows t :=
  ⟨List.Subset.refl _, List.Subset.refl _, List.Subset.refl _, List.Subset.refl _, List.Subset.refl _⟩

theorem Tables.Grows.trans {t t' t'' : Tables} (h : t.Grows t') (h' : t'.Grows t'') : t.Grows t'' where
  albums  := List.Subset.trans h.albums h'.albums
  artists := List.Subset.trans h.artists h'.artists
  tracks  := List.Subset.trans h.tracks h'.tracks
  users   := List.Subset.trans h.users h'.users
  labels  := List.Subset.trans h.labels h'.labels

theorem Tables.Grows.user {t t' : Tables} {u : Int} (h : t.Grows t') (hu : u ∈ t.users.map (·.id)) :
    u ∈ t'.users.map (·.id) := by
  have ⟨v, hv, he⟩ := List.mem_map.mp hu
  have ⟨v', hv', he'⟩ := List.mem_map.mp (h.users (List.mem_map_of_mem hv))
  exact List.mem_map.mpr ⟨v', hv', (congrArg Prod.fst he').trans he⟩

-- Rows that are changed in all but their keys.
theorem map_map_if {rows : List α} {p : α → Prop} [DecidablePred p] {f : α → α} {key : α → β}
    (hf : ∀ a, key (f a) = key a) : (rows.map fun a => if p a then f a else a).map key = rows.map key := by
  rw [List.map_map]
  exact List.map_congr_left fun a _ => by dsimp only [Function.comp]; split <;> simp [hf]

theorem map_subset_map_if {rows : List α} {p : α → Prop} [DecidablePred p] {f : α → α} {key : α → β}
    (hf : ∀ a, key (f a) = key a) :
    rows.map key ⊆ (rows.map fun a => if p a then f a else a).map key := by
  rw [map_map_if hf]
  exact List.Subset.refl _

-- Nothing that an operation does takes one of them away.
theorem Command.Effect.grows {c : Command} {t t' : Tables} (e : c.Effect t t') : t.Grows t' := by
  cases e
  case album     => exact { (Tables.Grows.refl : t.Grows t) with albums := by simp }
  case artist    => exact { (Tables.Grows.refl : t.Grows t) with artists := by simp }
  case track     => exact { (Tables.Grows.refl : t.Grows t) with tracks := by simp }
  case newUser   => exact { (Tables.Grows.refl : t.Grows t) with users := by simp }
  case label     => exact { (Tables.Grows.refl : t.Grows t) with labels := by simp }
  case knownUser =>
    exact { (Tables.Grows.refl : t.Grows t) with users := map_subset_map_if fun _ => rfl }
  case tokens    =>
    exact { (Tables.Grows.refl : t.Grows t) with users := map_subset_map_if fun _ => rfl }
  case criteria  =>
    exact { (Tables.Grows.refl : t.Grows t) with labels := map_subset_map_if fun _ => rfl }
  all_goals exact { (Tables.Grows.refl : t.Grows t) with }

-- What holds of tables and of all that they grow to.
def Growing (I : Tables → Prop) : Prop := ∀ t t', t.Grows t' → I t → I t'

end LabelPlaylists.Library
