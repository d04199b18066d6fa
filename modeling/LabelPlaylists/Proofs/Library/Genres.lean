import LabelPlaylists.Favorites.Pull
import LabelPlaylists.Library.Export
import LabelPlaylists.Proofs.Library.Append
import LabelPlaylists.Proofs.Library.Case

namespace LabelPlaylists

open Favorites (artistValues)

-- The row of an artist in the library.
def Spotify.Artist.row (a : Spotify.Artist) : Library.Artist :=
  ⟨some a.id, a.name, (Json.arr (a.genres.map .str)).text⟩

-- An artist is told with the genres that the row has been written from.
theorem Spotify.Artist.export_row (a : Spotify.Artist) :
    Library.Export.artist a.row
      = .obj [("id", .str a.id), ("name", .str a.name), ("genres", .arr (a.genres.map .str))] := by
  show Json.obj [_, _, ("genres", (Json.read? (Json.arr (a.genres.map .str)).text).getD .null)] = _
  rw [Json.read?_strings]
  rfl

namespace Library

variable {artists : List Spotify.Artist} {a : Spotify.Artist} {id v : String}

namespace Tables

variable {t : Tables} {r : Track}

-- An artist whose id is known makes no difference.
theorem artist?_addArtist (t : Tables) (a : Spotify.Artist) (id : String) :
    (t.addArtist (artistValues a)).1.artist? id
      = (t.artist? id).or (if a.id = id then some a.row else none) := by
  have hk : (t.artists.any (·.id = some a.id)) = (t.artist? a.id).isSome := by
    rw [Bool.eq_iff_iff, List.any_eq_true, artist?, List.find?_isSome]
  show (if _ then (t, 0) else ({ t with artists := t.artists ++ [a.row] }, 1)).1.artist? id = _
  split
  case isTrue h =>
    obtain ⟨b, hb⟩ := Option.isSome_iff_exists.mp (hk ▸ h.right)
    split
    case isTrue he => rw [← he, hb, Option.some_or]
    case isFalse   => rw [Option.or_none]
  case isFalse h =>
    show (t.artists ++ [a.row]).find? _ = _
    rw [List.find?_append, List.find?_singleton]
    simp [artist?, Spotify.Artist.row]

-- The first of the artists with an id is added, unless the id has been known before.
theorem artist?_addArtists (t : Tables) (artists : List Spotify.Artist) (id : String) :
    ((artists.map artistValues).foldl (fun t v => (t.addArtist v).1) t).artist? id
      = (t.artist? id).or ((artists.find? (·.id = id)).map Spotify.Artist.row) := by
  induction artists generalizing t
  case nil => simp
  case cons a rest hi =>
    rw [List.map_cons, List.foldl_cons, hi, artist?_addArtist, Option.or_assoc, List.find?_cons]
    split <;> simp_all

-- Genres without a null are what the store goes through.
theorem genreValues_row (hg : ∀ g ∈ a.genres, Text.IsPlain g) : genreValues a.row.genres = a.genres.map .text := by
  rw [(genreValues_eq ⟨a.genres, hg, rfl⟩).left, Artist.genreNames_eq rfl]

section

variable (hs : t.Sound) (ha : t.artist? a.id = some a.row) (hc : ∀ id, ⟨r.id, id⟩ ∈ t.credits ↔ id = a.id)

include hs ha hc

theorem mem_artistsOf_only {b : Artist} : b ∈ t.artistsOf r.id ↔ b = a.row := by
  simp only [artistsOf, List.mem_filter, List.any_eq_true, Bool.and_eq_true, decide_eq_true_eq]
  constructor
  case mp =>
    rintro ⟨hb, ⟨k, id⟩, hm, he, hi⟩
    cases he
    cases (hc id).mp hm
    exact Option.some.inj (((artist?_eq_some_iff hs).mpr ⟨hb, hi⟩).symm.trans ha)
  case mpr =>
    rintro rfl
    exact ⟨((artist?_eq_some_iff hs).mp ha).left, ⟨r.id, a.id⟩, (hc a.id).mpr rfl, rfl, rfl⟩

theorem mem_genres_only (hg : ∀ g ∈ a.genres, Text.IsPlain g) (b : Album) (d : Datum) :
    d ∈ (t.scope r b).rows .genres ↔ d ∈ a.genres.map Datum.text := by
  simp only [scope, List.mem_flatMap, mem_artistsOf_only hs ha hc, exists_eq_left, genreValues_row hg]

theorem passes_genre_iff (hr : r ∈ t.tracks) (hg : ∀ g ∈ a.genres, Text.IsPlain g) (v : String) :
    t.passes (Criteria.Condition.text .genre .equals v).filter r
      ↔ ∃ g ∈ a.genres, Text.folded g = Text.folded v := by
  have ⟨b, hb, hi⟩ := hs.albumOf hr
  unfold passes
  rw [(album?_eq_some_iff hs).mpr ⟨hb, hi⟩]
  have he := Criteria.any_rows (mem_genres_only hs ha hc hg b) fun g hm =>
    Criteria.eval_same (c := .genre) (s := (t.scope r b).at' .genres (.text g)) v [] rfl (.inl (hg g hm))
  refine (iff_of_eq (congrArg (fun b => (some b == some true) = true) he)).trans ?_
  simp [Text.folded, String.ofList_inj]

end

end Tables

namespace Store

open Criteria (Condition compile compared)

variable {s : Store} {events : List Event}

-- What a library makes of the genres of an artist.
-- 1. Whenever it is asked for the artist it answers with the same row,
-- 2. and this row is told with exactly the genres of the artist.
-- 3. The row holds nothing but ASCII.
-- 4. As long as no genre has a null, it is the genres themselves that criteria compare with,
-- 5. and criteria that ask for a genre find a track of this artist alone if and only if it is, but for the case
--    of A to Z, one of them.
structure KeepsGenres (s : Store) (a : Spotify.Artist) : Prop where
  answered : ∀ now, s.perform now (.artist (.text a.id)) = (.ok (some a.row), s)
  told     : Export.artist a.row
    = .obj [("id", .str a.id), ("name", .str a.name), ("genres", .arr (a.genres.map .str))]
  ascii    : ∀ c ∈ a.row.genres.toList, c.toNat < 128
  values   : (∀ g ∈ a.genres, Text.IsPlain g) → genreValues a.row.genres = a.genres.map .text
  found    : (∀ g ∈ a.genres, Text.IsPlain g) → ∀ r ∈ s.tables.tracks, Datum.IsStorable r.userId →
    (∀ id, ⟨r.id, id⟩ ∈ s.tables.credits ↔ id = a.id) → ∀ v now, ∃ c views,
      compile (compared .genre .eq v) = .ok c ∧
      s.perform now (.find (.integer r.userId) (some c.filter)) = (.ok views, s) ∧
      (r ∈ views.map (·.track) ↔ ∃ g ∈ a.genres, Text.folded g = Text.folded v)

-- Artists that nobody has known are kept with their genres, whatever happens to the library later.
theorem Reached.keepsGenres (h : Reached (fun _ => True) s) (hf : artists.find? (·.id = a.id) = some a)
    (hn : some a.id ∉ s.tables.artists.map (·.id)) (now : Moment) (events : List Event) :
    ∃ n s', s.perform now (.addArtists (artists.map Favorites.artistValues)) = (.ok n, s') ∧
      (s'.after events).KeepsGenres a := by
  have hv : ∀ v ∈ artists.map Favorites.artistValues, ∀ d ∈ artistValues v, Accepts d := by
    simp [artistValues, Favorites.artistValues]
  have hw : Command.Writes (.addArtists (artists.map Favorites.artistValues)) := by
    refine fun he => ?_
    rw [List.map_eq_nil_iff.mp he] at hf
    cases hf
  have ⟨n, s', hp, ht⟩ := perform_addArtists (s := s) now _ hv
  have hr : Reached (fun _ => True) (s'.after events) := by
    have h' : Reached _ (s.perform now (.addArtists (artists.map Favorites.artistValues))).2 := h.perform trivial
    rw [hp] at h'
    exact h'.after fun e _ => by cases e <;> trivial
  have hk : s'.tables.artist? a.id = some a.row := by
    have ha : s.tables.artist? a.id = none := by
      simpa using mt Tables.artist?_isSome_iff.mp hn
    rw [ht, Tables.artist?_addArtists, ha, hf]
    rfl
  have he := (after_extendsTo (.refl s'.tables) (perform_writes hw hp ▸ .refl _) events).left
  have hk : (s'.after events).tables.artist? a.id = some a.row := he.artists.find?_eq_some hk
  refine ⟨n, s', hp, ?_⟩
  constructor
  case answered => exact fun _ => perform_ok (congrArg (fun b => (Except.ok b, s'.after events)) hk)
  case told     => exact a.export_row
  case ascii    => exact Json.text_strings_ascii a.genres
  case values   => exact Tables.genreValues_row
  case found    =>
    intro hg r hm hu hc v now
    let c : Condition := .text .genre .equals v
    have ⟨hl, hd⟩ := Condition.textTest_fits .genre .equals
    have hf : (s'.after events).perform now (.find (.integer r.userId) (some c.filter)) = (.ok _, s'.after events) :=
      perform_ask (c := .find ..) rfl (by simp [hu, filterValues, c, Condition.filter, Condition.parameters])
        (Tables.find_ok hl hd)
    refine ⟨c, _, Criteria.compile_compared (o := .eq) rfl v, hf, ?_⟩
    rw [Tables.mem_found hr.sound.tables, and_iff_right hm, and_iff_right rfl]
    exact Tables.passes_genre_iff hr.sound.tables hk hc hm hg v

namespace Sample

def hostile : Spotify.Artist := ⟨"hostile", "Hostile", ["a\"b\\c\n", "😀", "", "Rock", "Rock"]⟩

def added : Store := (library.perform noon (.addArtists ([hostile].map Favorites.artistValues))).2

-- The only track of the artist.
def lone : Track := ⟨2, 1, "lone", "Lone", "album", "2024-01-02", false⟩

def later : List Event := [
  .perform noon (.addTrack (.integer 1)
    ⟨.text "lone", .text "Lone", .text "album", .text "2024-01-02", false⟩ [.text "hostile"]),
  .reconnect
]

end Sample

open Sample in
theorem Reached.keepsGenres_hostile :
    Reached (fun _ => True) library ∧ [hostile].find? (·.id = hostile.id) = some hostile ∧
      some hostile.id ∉ library.tables.artists.map (·.id) ∧
      ∃ n s', library.perform noon (.addArtists ([hostile].map Favorites.artistValues)) = (.ok n, s') ∧
        (s'.after later).KeepsGenres hostile ∧ lone ∈ (s'.after later).tables.tracks ∧
        ∃ c views, compile (compared .genre .eq "rOCK") = .ok c ∧
          (s'.after later).perform noon (.find (.integer 1) (some c.filter)) = (.ok views, s'.after later) ∧
          lone ∈ views.map (·.track) := by
  have hl : Reached (fun _ => True) library := library_reached.mono fun _ _ => trivial
  have hf : [hostile].find? (·.id = hostile.id) = some hostile := by decide
  have hn : some hostile.id ∉ library.tables.artists.map (·.id) := by decide +kernel
  have ⟨n, s', hp, hk⟩ := hl.keepsGenres hf hn noon later
  refine ⟨hl, hf, hn, n, s', hp, hk, ?_⟩
  obtain rfl : s' = added := by rw [added, hp]
  have ht : lone ∈ (added.after later).tables.tracks := by decide +kernel
  have hc : (added.after later).tables.credits = [⟨1, "artist"⟩, ⟨2, "hostile"⟩] := by decide +kernel
  have ⟨c, views, hc, hv, hm⟩ := hk.found (by decide +kernel) lone ht (by decide)
    (fun id => by rw [hc]; simp [lone, hostile]) "rOCK" noon
  exact ⟨ht, c, views, hc, hv, hm.mpr ⟨"Rock", by decide, by decide +kernel⟩⟩

end Store

end Library

end LabelPlaylists
