import LabelPlaylists.Favorites.Pull
import LabelPlaylists.Proofs.Library.Answer

namespace LabelPlaylists

namespace Library.Tables

variable {t : Tables} {u : Int}

theorem mem_knownTracks {ids : List Datum} {x : String} :
    x ∈ t.knownTracks (.integer u) ids ↔
      (u, x) ∈ t.tracks.map (fun r => (r.userId, r.spotifyId)) ∧ ∃ d ∈ ids, d.text? = some x := by
  simp only [knownTracks, Datum.whole?, sorted, List.mem_mergeSort, List.mem_map, List.mem_filter,
    Bool.and_eq_true, decide_eq_true_eq, List.any_eq_true, Prod.mk.injEq]
  constructor
  case mp =>
    rintro ⟨r, ⟨hr, hu, d, hd, he⟩, hx⟩
    exact ⟨⟨r, hr, hu, hx⟩, d, hd, hx ▸ he⟩
  case mpr =>
    rintro ⟨⟨r, hr, hu, hx⟩, d, hd, he⟩
    exact ⟨r, ⟨hr, hu, d, hd, hx ▸ he⟩, hx⟩

theorem mem_knownArtists {ids : List Datum} {x : String} (h : ∃ d ∈ ids, d.text? = some x) :
    x ∈ t.knownArtists ids ↔ some x ∈ t.artists.map (·.id) := by
  simp only [knownArtists, sorted, List.mem_mergeSort, List.mem_filterMap, List.mem_map,
    Option.filter_eq_some_iff, List.any_eq_true, decide_eq_true_eq]
  constructor
  case mp =>
    rintro ⟨a, ha, he, _⟩
    exact ⟨a, ha, he⟩
  case mpr =>
    rintro ⟨a, ha, he⟩
    exact ⟨a, ha, he, h⟩

end Library.Tables

namespace Favorites

open Library (Tables)
open Spotify (SavedTrack)

theorem mem_distinct {texts : List String} {x : String} : x ∈ distinct texts ↔ x ∈ texts := by
  suffices h : ∀ seen, x ∈ texts.foldl (fun seen s => if seen.contains s then seen else seen ++ [s]) seen
      ↔ x ∈ seen ∨ x ∈ texts by simpa [distinct] using h []
  induction texts
  case nil => simp
  case cons s rest hi =>
    intro seen
    rw [List.foldl_cons, hi, List.mem_cons]
    by_cases hs : s ∈ seen <;> simp only [List.contains_iff_mem, hs, if_true, if_false]
    case pos => exact ⟨fun h => h.elim .inl (.inr ∘ .inr), fun h => by grind⟩
    case neg => simp [or_assoc]

theorem mem_artistIdsOf {items : List SavedTrack} {x : String} :
    x ∈ artistIdsOf items ↔ ∃ i ∈ items, x ∈ i.track.artists.map (·.id) := by
  simp [artistIdsOf, mem_distinct]

theorem mem_ids_putAlbum {albums : List Spotify.Album} {a : Spotify.Album} {x : String} :
    x ∈ (putAlbum albums a).map (·.id) ↔ x ∈ albums.map (·.id) ∨ x = a.id := by
  induction albums
  case nil => simp [putAlbum]
  case cons b rest hi =>
    rw [putAlbum]
    split
    case isTrue h  => simp [h]; grind
    case isFalse h => rw [List.map_cons, List.mem_cons, hi]; simp [or_assoc]

theorem mem_ids_albumsOf {items : List SavedTrack} {x : String} :
    x ∈ (albumsOf items).map (·.id) ↔ x ∈ items.map (·.track.album.id) := by
  suffices h : ∀ albums, x ∈ ((items.map (·.track.album)).foldl putAlbum albums).map (·.id)
      ↔ x ∈ albums.map (·.id) ∨ x ∈ items.map (·.track.album.id) by simpa [albumsOf] using h []
  induction items
  case nil => simp
  case cons i rest hi =>
    intro albums
    rw [List.map_cons, List.foldl_cons, hi, mem_ids_putAlbum, List.map_cons, List.mem_cons, or_assoc]

-- Of items with different tracks all are kept whose tracks are not known.
theorem newItems_eq_filter {known : List String} {items : List SavedTrack}
    (h : (items.map (·.track.id)).Nodup) :
    newItems known items = items.filter (!known.contains ·.track.id) := by
  induction items generalizing known
  case nil => rfl
  case cons i rest hi =>
    have ⟨hn, hr⟩ := List.nodup_cons.mp h
    cases hk : known.contains i.track.id
    all_goals simp only [newItems, List.filter_cons, hk, hi hr, Bool.not_false, Bool.not_true,
      if_true, Bool.false_eq_true, if_false]
    -- A track that has been taken does not come again.
    refine congrArg _ (List.filter_congr fun j hj => ?_)
    have : j.track.id ≠ i.track.id := fun he => hn (List.mem_map.mpr ⟨j, hj, he⟩)
    simp [this]

theorem oldestFirst_perm (items : List SavedTrack) : (oldestFirst items).Perm items :=
  List.mergeSort_perm _ _

-- The row of a favorite under a number of its own.
def row (u k : Int) (i : SavedTrack) : Library.Track :=
  ⟨k, u, i.track.id, i.track.name, i.track.album.id, i.addedAt, i.track.explicit⟩

-- The rows of favorites that are stored one after the other.
def rows (u : Int) : Int → List SavedTrack → List Library.Track
  | _, []           => []
  | last, i :: rest => row u (last + 1) i :: rows u (last + 1) rest

-- The artists of favorites that are stored one after the other.
def credits : Int → List SavedTrack → List Library.Credit
  | _, []           => []
  | last, i :: rest => (i.track.artists.map fun a => ⟨last + 1, a.id⟩) ++ credits (last + 1) rest

theorem mem_credits_singleton {last : Int} {i : SavedTrack} {c : Library.Credit} :
    c ∈ credits last [i] ↔ c.trackId = last + 1 ∧ c.artistId ∈ i.track.artists.map (·.id) := by
  obtain ⟨k, a⟩ := c
  simp only [credits, List.append_nil, List.mem_map, Library.Credit.mk.injEq]
  constructor
  case mp  => exact fun ⟨r, hr, hk, ha⟩ => ⟨hk.symm, r, hr, ha⟩
  case mpr => exact fun ⟨hk, r, hr, ha⟩ => ⟨r, hr, hk.symm, ha⟩

theorem rows_append {u last : Int} {items more : List SavedTrack} :
    rows u last (items ++ more) = rows u last items ++ rows u (last + items.length) more := by
  induction items generalizing last
  case nil          => simp [rows]
  case cons i _ hi  => simp [rows, hi, Int.add_assoc, Int.add_comm 1]

theorem credits_append {last : Int} {items more : List SavedTrack} :
    credits last (items ++ more) = credits last items ++ credits (last + items.length) more := by
  induction items generalizing last
  case nil         => simp [credits]
  case cons i _ hi => simp [credits, hi, Int.add_assoc, Int.add_comm 1]

theorem map_rows {u last : Int} {items : List SavedTrack} :
    (rows u last items).map (fun r => (r.userId, r.spotifyId))
      = items.map fun i => (u, i.track.id) := by
  induction items generalizing last <;> simp_all [rows, row]

-- What a user gains by favorites that are stored one after the other. Albums and artists may have come
-- in addition.
structure Gains (u : Int) (items : List SavedTrack) (t t' : Tables) : Prop where
  users   : t'.users.map (·.id) = t.users.map (·.id)
  albums  : t.albums.map (·.id) ⊆ t'.albums.map (·.id)
  artists : t.artists.map (·.id) ⊆ t'.artists.map (·.id)
  tracks  : t'.tracks = t.tracks ++ rows u t.lastTrack items
  last    : t'.lastTrack = t.lastTrack + items.length
  credits : ∀ c, c ∈ t'.credits ↔ c ∈ t.credits ∨ c ∈ credits t.lastTrack items

namespace Gains

variable {u : Int} {items more : List SavedTrack} {t t' t'' : Tables}

theorem refl : Gains u [] t t := by
  constructor <;> simp [rows, Favorites.credits]

theorem trans (h : Gains u items t t') (h' : Gains u more t' t'') :
    Gains u (items ++ more) t t'' where
  users   := h'.users.trans h.users
  albums  := List.Subset.trans h.albums h'.albums
  artists := List.Subset.trans h.artists h'.artists
  tracks  := by rw [h'.tracks, h.tracks, h.last, rows_append, List.append_assoc]
  last    := by rw [h'.last, h.last, List.length_append]; omega
  credits := by simp [h'.credits, h.credits, h.last, credits_append, or_assoc]

-- The Spotify ids under which the user has tracks.
theorem mem_names (h : Gains u items t t') {x : String} :
    (u, x) ∈ t'.tracks.map (fun r => (r.userId, r.spotifyId)) ↔
      (u, x) ∈ t.tracks.map (fun r => (r.userId, r.spotifyId)) ∨ x ∈ items.map (·.track.id) := by
  rw [h.tracks, List.map_append, map_rows, List.mem_append]
  simp

theorem addAlbum {v : Library.AlbumValues} : Gains u [] t (t.addAlbum v).1 := by
  unfold Tables.addAlbum
  split
  case h_1 => exact .refl
  case h_2 =>
    split
    case isTrue  => exact .refl
    case isFalse => exact { (refl : Gains u [] t t) with albums := by simp }

theorem addArtist {v : Library.ArtistValues} : Gains u [] t (t.addArtist v).1 := by
  unfold Tables.addArtist
  split
  case h_1 => exact .refl
  case h_2 =>
    split
    case isTrue  => exact .refl
    case isFalse => exact { (refl : Gains u [] t t) with artists := by simp }

-- Albums that are added are there afterwards, whether they are new or not.
theorem addAlbums (albums : List Spotify.Album) {t : Tables} :
    Gains u [] t ((albums.map albumValues).foldl (fun t v => (t.addAlbum v).1) t) ∧
    ∀ a ∈ albums, some a.id ∈
      ((albums.map albumValues).foldl (fun t v => (t.addAlbum v).1) t).albums.map (·.id) := by
  induction albums generalizing t
  case nil => exact ⟨.refl, nofun⟩
  case cons a rest hi =>
    have ⟨hg, hm⟩ := hi (t := (t.addAlbum (albumValues a)).1)
    refine ⟨addAlbum.trans hg, List.forall_mem_cons.mpr ⟨hg.albums ?_, hm⟩⟩
    unfold Tables.addAlbum albumValues
    dsimp only [Datum.text?]
    split
    case isTrue h  => simpa using h
    case isFalse h => simp

theorem addArtists (artists : List Spotify.Artist) {t : Tables} :
    Gains u [] t ((artists.map artistValues).foldl (fun t v => (t.addArtist v).1) t) ∧
    ∀ a ∈ artists, some a.id ∈
      ((artists.map artistValues).foldl (fun t v => (t.addArtist v).1) t).artists.map (·.id) := by
  induction artists generalizing t
  case nil => exact ⟨.refl, nofun⟩
  case cons a rest hi =>
    have ⟨hg, hm⟩ := hi (t := (t.addArtist (artistValues a)).1)
    refine ⟨addArtist.trans hg, List.forall_mem_cons.mpr ⟨hg.artists ?_, hm⟩⟩
    unfold Tables.addArtist artistValues
    dsimp only [Datum.text?]
    split
    case isTrue h  => simpa using h
    case isFalse h => simp

end Gains

end Favorites

end LabelPlaylists
