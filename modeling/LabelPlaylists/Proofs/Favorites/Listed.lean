import LabelPlaylists.Proofs.Favorites.Completeness
import LabelPlaylists.Proofs.Library.Newest

namespace LabelPlaylists.Favorites

open Library (Tables Store newestFirst)
open Spotify (SavedTrack)

variable {u : Int} {favorites items : List SavedTrack} {t t' : Tables} {n : Nat}

theorem oldestFirst_filter {c : String} :
    (oldestFirst items).filter (·.addedAt = c) = items.filter (·.addedAt = c) := by
  have ht (a b c : SavedTrack) (hab : !(b.addedAt < a.addedAt)) (hbc : !(c.addedAt < b.addedAt)) :
      !(c.addedAt < a.addedAt) := Library.newestFirst_trans c b a hbc hab
  refine Library.filter_mergeSort ht ?_ ?_
  case refine_1 => exact fun a b => Library.newestFirst_total b a
  case refine_2 => exact fun a b ha hb => by simp_all

-- Favorites of one time are stored in the order in which Spotify has them, over the borders of pages too.
theorem arrivals_filter {c : String} :
    (arrivals favorites n).filter (·.addedAt = c) = (favorites.take (offset n)).filter (·.addedAt = c) := by
  induction n
  case zero      => rfl
  case succ n hi => rw [arrivals, take_offset_succ, List.filter_append, List.filter_append, hi, oldestFirst_filter]

theorem pairwise_rows {last : Int} : (rows u last items).Pairwise fun r q => r.id < q.id := by
  induction items generalizing last
  case nil          => exact .nil
  case cons i _ hi  => exact .cons (fun q hq => (of_mem_rows hq).choose_spec.right.right.left) hi

-- What is stored is listed from the newest on, and what is of one time the other way round.
theorem listed_rows {last : Int} :
    (Tables.listed (rows u last items)).map (·.spotifyId)
      = (newestFirst (·.addedAt) items.reverse).map (·.track.id) := by
  let f (r : Library.Track) : String × String := (r.addedAt, r.spotifyId)
  let g (i : SavedTrack) : String × String := (i.addedAt, i.track.id)
  have hm : (rows u last items).map f = items.map g := by
    induction items generalizing last <;> simp_all [rows, row, f, g]
  have hr : (newestFirst (·.addedAt) (rows u last items).reverse).map f
      = newestFirst Prod.fst ((rows u last items).reverse.map f) := Library.map_newestFirst fun _ _ => rfl
  have hi : (newestFirst (·.addedAt) items.reverse).map g
      = newestFirst Prod.fst (items.reverse.map g) := Library.map_newestFirst fun _ _ => rfl
  rw [Tables.listed_eq_newestFirst pairwise_rows]
  calc (newestFirst (·.addedAt) (rows u last items).reverse).map (·.spotifyId)
    _ = ((newestFirst (·.addedAt) (rows u last items).reverse).map f).map Prod.snd := by rw [List.map_map]; rfl
    _ = ((newestFirst (·.addedAt) items.reverse).map g).map Prod.snd := by
      rw [hr, hi, List.map_reverse, hm, List.map_reverse]
    _ = (newestFirst (·.addedAt) items.reverse).map (·.track.id) := by rw [List.map_map]; rfl

theorem Gains.tracksOf (h : Gains u items t t') (hn : ∀ r ∈ t.tracks, r.userId ≠ u) :
    t'.tracksOf (.integer u) = Tables.listed (rows u t.lastTrack items) := by
  have hu : ∀ r ∈ rows u t.lastTrack items, r.userId = u := fun r hr => by
    have ⟨_, _, he, _⟩ := of_mem_rows hr
    rw [he]
    rfl
  show Tables.listed (t'.tracks.filter (·.userId = u)) = _
  rw [h.tracks, List.filter_append, List.filter_eq_nil_iff.mpr (by simpa using hn),
    List.filter_eq_self.mpr (by simpa using hu), List.nil_append]

theorem not_stores (hn : ∀ r ∈ t.tracks, r.userId ≠ u) {i : SavedTrack} : ¬Stores t u i := by
  intro hs
  have ⟨r, hr, he⟩ := List.mem_map.mp hs
  exact hn r hr (congrArg Prod.fst he)

theorem fresh_eq_self (hn : ∀ r ∈ t.tracks, r.userId ≠ u) : fresh t u items = items :=
  List.filter_eq_self.mpr fun _ _ => decide_eq_true (not_stores hn)

-- If nothing of a user is stored, the last page is the first that is not full.
theorem length_lt_of_not_entirelyNew (hn : ∀ r ∈ t.tracks, r.userId ≠ u)
    (h : ¬EntirelyNew t u favorites n) : favorites.length < offset (n + 1) := by
  have hl : (page favorites n).length ≠ limit n := fun he => h ⟨he, fun _ _ => not_stores hn⟩
  simp only [page, List.length_take, List.length_drop] at hl
  simp only [offset]
  omega

theorem eq_of_ids_eq (hp : items.Perm favorites) (hn : (favorites.map (·.track.id)).Nodup)
    (h : items.map (·.track.id) = favorites.map (·.track.id)) : items = favorites := by
  refine List.ext_getElem hp.length_eq fun k hk hk' => ?_
  refine List.inj_on_of_nodup_map hn (hp.subset (List.getElem_mem hk)) (List.getElem_mem hk') ?_
  simpa [hk, hk'] using congrArg (·[k]?) h

variable {σ : Type} {S : Surroundings σ} {G : σ → Prop} {s : σ} {workers : Int}

-- A pull for a user who has no track yet. If nothing fails, it comes to an end, and
-- 1. a page that is large enough lists the same as a search without criteria
-- 2. the favorites are listed from the newest on, and those of one time the other way round than at Spotify
-- 3. this is Spotify's order if and only if each favorite is newer than those that follow
theorem pull_lists (hb : Begins S G u favorites s) (hd : ∀ n, Delivers S G n) (hw : 1 ≤ workers)
    (hn : ∀ r ∈ (S.scene s).library.tables.tracks, r.userId ≠ u) :
    ∃ total s' views, S.Settles (fun pages => pull pages workers) s (.ok total) s' ∧
      (∀ now, (S.scene s').library.perform now (.find (.integer u) none)
        = (.ok views, (S.scene s').library)) ∧
      (∀ now limit, Datum.IsStorable limit → favorites.length ≤ limit →
        (S.scene s').library.perform now (.tracks (.integer u) (.integer limit) (.integer 0))
          = (.ok views, (S.scene s').library)) ∧
      views.map (·.track.spotifyId) = (newestFirst (·.addedAt) favorites.reverse).map (·.track.id) ∧
      (views.map (·.track.spotifyId) = favorites.map (·.track.id) ↔
        favorites.Pairwise fun i j => j.addedAt < i.addedAt) := by
  have ⟨m, s', h⟩ := pull_settles hb hw
  rcases h with ⟨total, he, hs⟩ | ⟨_, hf, _⟩
  case inr => exact (hf.halts.choose_spec.right.left (hd m)).elim
  case inl =>
    have ha : Advances S G u _ (arrivals favorites (m + 1)) s s' := fresh_eq_self hn ▸ he.inOrder
    have ht : favorites.take (offset (m + 1)) = favorites :=
      List.take_of_length_le (Nat.le_of_lt (length_lt_of_not_entirelyNew hn he.last))
    have hviews : ((S.scene s').library.tables.viewsOf u).map (·.track.spotifyId)
        = (newestFirst (·.addedAt) favorites.reverse).map (·.track.id) := by
      calc ((S.scene s').library.tables.viewsOf u).map (·.track.spotifyId)
        _ = ((S.scene s').library.tables.tracksOf (.integer u)).map (·.spotifyId) := by
          rw [← Tables.map_track_viewsOf ha.serves.sound.tables, List.map_map]
          rfl
        _ = (newestFirst (·.addedAt) (arrivals favorites (m + 1)).reverse).map (·.track.id) := by
          rw [ha.gains.tracksOf hn, listed_rows]
        _ = _ := by
          refine congrArg _ (Library.newestFirst_eq_iff.mpr fun c => ?_)
          rw [List.filter_reverse, List.filter_reverse, arrivals_filter, ht]
    have hlen : ((S.scene s').library.tables.viewsOf u).length = favorites.length := by
      have := congrArg List.length hviews
      simpa [Library.newestFirst_perm.length_eq] using this
    refine ⟨total, s', _, hs, fun now => Store.perform_find_none hb.storable, ?_, hviews, ?_⟩
    case refine_1 =>
      intro now limit hlimit hle
      rw [Store.perform_tracks hb.storable hlimit (by decide) (by omega)]
      rw [Int.toNat_zero, List.drop_zero, List.take_of_length_le (by omega)]
    case refine_2 =>
      rw [hviews, ← Library.newestFirst_reverse_eq_iff (hb.distinct.of_map _)]
      refine ⟨fun h => eq_of_ids_eq ?_ hb.distinct h, fun h => by rw [h]⟩
      exact Library.newestFirst_perm.trans (List.reverse_perm _)

open Sample in
-- Six favorites of one time, which fill the first page and go on on the second one.
theorem pull_lists_one_time :
    Begins (account six fun _ => true) (fun _ => True) 1 six (scene tables) ∧
    (∀ n, Delivers (account six fun _ => true) (fun _ => True) n) ∧
    (∀ r ∈ (scene tables).library.tables.tracks, r.userId ≠ 1) ∧
    ∃ total s' views,
      (account six fun _ => true).Settles (fun pages => pull pages 1) (scene tables) (.ok total) s' ∧
      s'.library.perform noon (.find (.integer 1) none) = (.ok views, s'.library) ∧
      s'.library.perform noon (.tracks (.integer 1) (.integer 6) (.integer 0)) = (.ok views, s'.library) ∧
      views.map (·.track.spotifyId) = ["t6", "t5", "t4", "t3", "t2", "t1"] ∧
      views.map (·.track.spotifyId) ≠ six.map (·.track.id) := by
  have hb : Begins (account six fun _ => true) (fun _ => True) 1 six (scene tables) :=
    begins tables_sound (by decide) (by decide)
  have hd : ∀ n, Delivers (account six fun _ => true) (fun _ => True) n := fun _ => delivers rfl
  have hn : ∀ r ∈ (scene tables).library.tables.tracks, r.userId ≠ 1 := nofun
  have ⟨total, s', views, hs, hf, ht, hv, hi⟩ := pull_lists hb hd (Int.le_refl 1) hn
  refine ⟨hb, hd, hn, total, s', views, hs, hf noon, ht noon 6 (by decide) (by decide), ?_, ?_⟩
  case refine_1 =>
    rw [hv, newestFirst, List.mergeSort_of_pairwise (by decide)]
    rfl
  case refine_2 => exact mt hi.mp (by decide)

end LabelPlaylists.Favorites
