import LabelPlaylists.Proofs.Json.Strings
import LabelPlaylists.Proofs.Library.Effect
import LabelPlaylists.Proofs.Text.Octets

namespace LabelPlaylists

-- A value that is kept as a text without a null, if it is kept as a text at all.
def Datum.IsPlain (d : Datum) : Prop := ∀ s, d.text? = some s → Text.IsPlain s

theorem Datum.isPlain_text {s : String} (h : Text.IsPlain s) : IsPlain (.text s) :=
  fun _ he => Option.some.inj he ▸ h

namespace Library

-- The JSON text of a list of texts without a null.
def ListsGenres (json : String) : Prop :=
  ∃ genres : List String, (∀ g ∈ genres, Text.IsPlain g) ∧ json = (Json.arr (genres.map .str)).text

-- No text that criteria look at has a null, and the genres of an artist are a list of texts.
def Command.IsPlain : Command → Prop
  | .addAlbums albums   => ∀ v ∈ albums, v.name.IsPlain ∧ v.releasedOn.IsPlain
  | .addArtists artists => ∀ v ∈ artists, v.name.IsPlain ∧ ListsGenres v.genres
  | .addTrack _ v _     => v.name.IsPlain
  | .addLabel _ name _  => name.IsPlain
  | _                   => True

-- What plain operations keep of the tables.
structure Tables.IsPlain (t : Tables) : Prop where
  albums  : ∀ a ∈ t.albums, Text.IsPlain a.name ∧ ∀ s ∈ a.releasedOn, Text.IsPlain s
  artists : ∀ a ∈ t.artists, Text.IsPlain a.name ∧ ListsGenres a.genres
  tracks  : ∀ r ∈ t.tracks, Text.IsPlain r.name
  labels  : ∀ l ∈ t.labels, Text.IsPlain l.name

theorem forall_mem_concat {rows : List α} {p : α → Prop} {row : α} (h : ∀ r ∈ rows, p r)
    (hr : p row) : ∀ r ∈ rows ++ [row], p r :=
  List.forall_mem_append.mpr ⟨h, List.forall_mem_singleton.mpr hr⟩

theorem Command.Effect.isPlain {c : Command} {t t' : Tables} (hc : c.IsPlain) (e : c.Effect t t')
    (h : t.IsPlain) : t'.IsPlain := by
  cases e
  case nothing => exact h
  case album hv hn _ =>
    have ⟨hp, hr⟩ := hc _ hv
    exact { h with albums := forall_mem_concat h.albums ⟨hp _ hn, hr⟩ }
  case artist hv hn _ =>
    have ⟨hp, hg⟩ := hc _ hv
    exact { h with artists := forall_mem_concat h.artists ⟨hp _ hn, hg⟩ }
  case track hn _ _ _ _ _ => exact { h with tracks := forall_mem_concat h.tracks (hc _ hn) }
  case label hn _ _       => exact { h with labels := forall_mem_concat h.labels (hc _ hn) }
  case criteria =>
    refine { h with labels := fun l hl => ?_ }
    have ⟨l', hl', he⟩ := List.mem_map.mp hl
    rw [← he]
    split <;> exact h.labels l' hl'
  all_goals exact { h with }

theorem Store.Reached.isPlain {s : Store} (h : Store.Reached Command.IsPlain s) :
    s.tables.IsPlain :=
  (h.invariant ⟨nofun, nofun, nofun, nofun⟩ fun hc e => e.effect.isPlain hc).left

-- The genres of an artist.
def Artist.genreNames (a : Artist) : List String :=
  match Json.read? a.genres with
  | some (.arr elements) => elements.filterMap fun | .str s => some s | _ => none
  | _                    => []

theorem Artist.genreNames_eq {a : Artist} {genres : List String}
    (h : a.genres = (Json.arr (genres.map .str)).text) : a.genreNames = genres := by
  unfold genreNames
  rw [h, Json.read?_strings]
  exact (List.filterMap_map ..).trans List.filterMap_some

-- The store goes through the same genres as the artist has.
theorem genreValues_eq {a : Artist} (h : ListsGenres a.genres) :
    genreValues a.genres = a.genreNames.map .text ∧ ∀ g ∈ a.genreNames, Text.IsPlain g := by
  obtain ⟨genres, hp, he⟩ := h
  rw [Artist.genreNames_eq he]
  refine ⟨?_, hp⟩
  unfold genreValues
  rw [he, Json.read?_strings]
  dsimp only
  rw [List.map_map]
  refine List.map_congr_left fun g hg => ?_
  have ht : g.toList.takeWhile (·.toNat ≠ 0) = g.toList :=
    List.takeWhile_eq_self_iff.mpr fun c hc => decide_eq_true (hp g hg c hc)
  show Datum.text (String.ofList (g.toList.takeWhile (·.toNat ≠ 0))) = .text g
  rw [ht, String.ofList_toList]

end Library

end LabelPlaylists
