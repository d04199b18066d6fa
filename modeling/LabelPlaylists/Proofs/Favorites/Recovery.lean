import LabelPlaylists.Proofs.Favorites.Completeness

namespace LabelPlaylists.Favorites

open Library (Tables)
open Spotify (SavedTrack)

-- What the tables come to by pulls that are started over and over again, none of which comes to its end.
-- The library is all that one pull passes on to the next.
inductive Retries (u : Int) (favorites : List SavedTrack) (t : Tables) : Tables → Prop
  | refl : Retries u favorites t t
  | fail {σ : Type} {S : Surroundings σ} {G : σ → Prop} {workers : Int} {s s' : σ} {e : Failure} :
    Retries u favorites t (S.scene s).library.tables → Begins S G u favorites s → 1 ≤ workers →
    S.Settles (fun pages => pull pages workers) s (.error e) s' →
    Retries u favorites t (S.scene s').library.tables

variable {u : Int} {favorites items : List SavedTrack} {t t' : Tables} {n m : Nat}

theorem offset_mono (h : n ≤ m) : offset n ≤ offset m := by
  induction h
  case refl      => exact Nat.le_refl _
  case step _ hi => exact Nat.le_trans hi (Nat.le_add_right _ _)

-- The favorites that are stored are those of the pages in front of the given one.
def NewestStored (t : Tables) (u : Int) (favorites : List SavedTrack) (n : Nat) : Prop :=
  ∀ i ∈ favorites, Stores t u i ↔ i ∈ favorites.take (offset n)

theorem mem_ids_take (hn : (favorites.map (·.track.id)).Nodup) {i : SavedTrack} (hi : i ∈ favorites) :
    i.track.id ∈ (favorites.take n).map (·.track.id) ↔ i ∈ favorites.take n := by
  refine ⟨fun h => ?_, fun h => List.mem_map_of_mem h⟩
  have ⟨j, hj, he⟩ := List.mem_map.mp h
  exact List.inj_on_of_nodup_map hn (List.take_subset _ _ hj) hi he ▸ hj

-- Pages that are stored in addition are again the newest ones.
theorem NewestStored.gains (h : NewestStored t u favorites n) (hg : Gains u items t t')
    (hn : (favorites.map (·.track.id)).Nodup) (hp : items.Perm (favorites.take (offset m))) :
    ∃ k, NewestStored t' u favorites k := by
  have hs : ∀ i ∈ favorites, Stores t' u i ↔
      i ∈ favorites.take (offset n) ∨ i ∈ favorites.take (offset m) := fun i hi => by
    rw [hg.stores, h i hi, (hp.map _).mem_iff, mem_ids_take hn hi]
  rcases Nat.le_total n m with hle | hle
  case inl =>
    have := List.take_subset_take_left favorites (offset_mono hle)
    exact ⟨m, fun i hi => (hs i hi).trans ⟨fun h => h.elim (this ·) id, .inr⟩⟩
  case inr =>
    have := List.take_subset_take_left favorites (offset_mono hle)
    exact ⟨n, fun i hi => (hs i hi).trans ⟨fun h => h.elim id (this ·), .inl⟩⟩

-- Pulls that fail leave whole pages, from the newest one on.
theorem Retries.newestStored (h : Retries u favorites t t') (h₀ : ∀ i ∈ favorites, ¬Stores t u i) :
    ∃ n, NewestStored t' u favorites n := by
  induction h
  case refl => exact ⟨0, fun i hi => by simp [h₀ i hi, offset]⟩
  case fail hb hw hs hi =>
    obtain ⟨n, hn⟩ := hi
    obtain ⟨m, s₁, ho⟩ := pull_settles hb hw
    rcases ho with ⟨_, _, hs₁⟩ | ⟨_, hf, hs₁⟩
    case inl => cases (hs.unique hs₁).left
    case inr =>
      obtain ⟨items, hp, _, _, ha⟩ := hf.halts
      exact (hs.unique hs₁).right ▸ hn.gains ha.gains hb.distinct hp

variable {σ : Type} {S : Surroundings σ} {G : σ → Prop} {s s' : σ} {workers : Int} {total : Summary}

-- Pulls that failed, and then one that comes to its end: all favorites are stored if and only if none
-- or all of them had been stored before. After any other failure the favorites that are missing lie
-- behind a page that is not entirely new, which is where pulls stop.
theorem recovers_iff (h₀ : ∀ r ∈ t.tracks, r.userId ≠ u)
    (hr : Retries u favorites t (S.scene s).library.tables) (hb : Begins S G u favorites s)
    (hw : 1 ≤ workers) (hs : S.Settles (fun pages => pull pages workers) s (.ok total) s') :
    (∀ i ∈ favorites, Stores (S.scene s').library.tables u i) ↔
      (∀ i ∈ favorites, ¬Stores (S.scene s).library.tables u i) ∨
      (∀ i ∈ favorites, Stores (S.scene s).library.tables u i) := by
  have hnone : ∀ i ∈ favorites, ¬Stores t u i := fun i _ hm => by
    obtain ⟨r, hr, he⟩ := List.mem_map.mp hm
    exact h₀ r hr (congrArg Prod.fst he)
  obtain ⟨n, hn⟩ := hr.newestStored hnone
  obtain ⟨m, s₁, ho⟩ := pull_settles hb hw
  rcases ho with ⟨_, he, hs₁⟩ | ⟨_, _, hs₁⟩
  case inr => cases (hs.unique hs₁).left
  case inl =>
    rw [← (hs.unique hs₁).right] at he
    obtain ⟨items, hp, ha⟩ := he.advances
    constructor
    case mpr =>
      rintro (hnone | hall) i hi
      · refine he.stores hb ⟨[], List.nil_suffix, fun j hj => ?_⟩ hi
        simp [hnone j hj]
      · exact ha.gains.stores.mpr (.inl (hall i hi))
    case mp =>
      intro hall
      refine or_iff_not_imp_left.mpr fun hsome i hi => ?_
      obtain ⟨j, hj, hs⟩ : ∃ j ∈ favorites, Stores (S.scene s).library.tables u j := by
        simpa using hsome
      have hn₀ : n ≠ 0 := by
        rintro rfl
        simpa [offset] using (hn j hj).mp hs
      -- The first page has been stored as a whole, so it is the last one that is asked for.
      have hpage : ∀ k ∈ page favorites 0, Stores (S.scene s).library.tables u k := fun k hk =>
        (hn k (page_sublist.subset hk)).mpr <|
          List.take_subset_take_left favorites (offset_mono (Nat.pos_of_ne_zero hn₀)) hk
      have hold : ¬EntirelyNew (S.scene s).library.tables u favorites 0 := by
        intro hnew
        obtain ⟨k, hk⟩ := List.exists_mem_of_length_pos (hnew.left ▸ limit_pos)
        exact hnew.right k hk (hpage k hk)
      have hm : m = 0 := by
        refine Nat.eq_zero_of_not_pos fun h => hold (he.new 0 h)
      subst hm
      have hf : fresh (S.scene s).library.tables u (page favorites 0) = [] :=
        List.filter_eq_nil_iff.mpr fun k hk => by simp [hpage k hk]
      have hi' := ha.gains.stores.mp (hall i hi)
      rw [hf, offset, List.take_zero, List.append_nil] at hp
      rw [hp.eq_nil] at hi'
      exact hi'.resolve_right List.not_mem_nil

namespace Sample

-- A pull of six favorites that fails on the second page leaves the five of the first one.
theorem fails_on_second_page : ∃ e s,
    (account six (· < 5)).Settles (fun pages => pull pages 1) (scene tables) (.error e) s ∧
    ∃ items ws, items.Perm (six.take 5) ∧
      Advances (account six (· < 5)) (fun _ => True) 1 ws items (scene tables) s := by
  have hnew : EntirelyNew tables 1 six 0 := by decide
  have hold : ¬EntirelyNew tables 1 six 1 := by decide
  have hb : Begins (account six (· < 5)) (fun _ => True) 1 six (scene tables) :=
    begins tables_sound (by decide) (by decide)
  have ⟨m, s, ho⟩ := pull_settles hb (Int.le_refl 1)
  rcases ho with ⟨_, he, _⟩ | ⟨e, hf, hs⟩
  case inl =>
    have hm : m ≠ 0 := fun h => he.last (h ▸ hnew)
    exact absurd (reach_of_hears (he.heard 1 (Nat.pos_of_ne_zero hm))) (by decide)
  case inr =>
    have ⟨items, hp, hd, ws, ha⟩ := hf.halts
    have hm : m = 1 := by
      rcases Nat.lt_trichotomy m 1 with h | h | h
      · exact (hd (Nat.lt_one_iff.mp h ▸ delivers (by decide))).elim
      · exact h
      · exact (hold (hf.new 1 h)).elim
    subst hm
    exact ⟨e, s, hs, items, ws, hp, ha⟩

end Sample

open Sample in
-- The next pull finds the first page stored, and the sixth favorite stays out.
theorem recovers_iff_second_page_lost : ∃ s s' total,
    Retries 1 six tables (Scene.library s).tables ∧
    (account six fun _ => true).Settles (fun pages => pull pages 1) s (.ok total) s' ∧
    (∃ i ∈ six, Stores s.library.tables 1 i) ∧ (∃ i ∈ six, ¬Stores s.library.tables 1 i) ∧
    ¬∀ i ∈ six, Stores s'.library.tables 1 i := by
  have hb₀ : Begins (account six (· < 5)) (fun _ => True) 1 six (scene tables) :=
    begins tables_sound (by decide) (by decide)
  obtain ⟨e, s, hs₀, items, ws, hp, ha⟩ := fails_on_second_page
  have hr : Retries 1 six tables s.library.tables := .fail .refl hb₀ (Int.le_refl 1) hs₀
  have hb : Begins (account six fun _ => true) (fun _ => True) 1 six s :=
    { hb₀ with
      offers := offers
      serves := ⟨trivial, ha.serves.session, ha.serves.sound, ha.serves.user⟩
      room   := by
        have hl : s.library.tables.lastTrack = 0 + items.length := ha.gains.last
        show s.library.tables.lastTrack + 6 < 2 ^ 63
        rw [hl, hp.length_eq]
        decide }
  have hstored : ∀ i, Stores s.library.tables 1 i ↔ i.track.id ∈ (six.take 5).map (·.track.id) :=
    fun i => ha.gains.stores.trans <| by
      rw [(hp.map _).mem_iff]
      exact or_iff_right (by simp [Stores, account, scene, tables])
  have hfirst : Stores s.library.tables 1 (favorite "t1") := (hstored _).mpr (by decide)
  have hsixth : ¬Stores s.library.tables 1 (favorite "t6") := mt (hstored _).mp (by decide)
  obtain ⟨m, s', ho⟩ := pull_settles hb (Int.le_refl 1)
  rcases ho with ⟨total, _, hs⟩ | ⟨_, hf, _⟩
  case inr => exact (hf.halts.choose_spec.right.left (delivers rfl)).elim
  case inl =>
    refine ⟨s, s', total, hr, hs, ⟨_, by decide, hfirst⟩, ⟨_, by decide, hsixth⟩, fun hall => ?_⟩
    rcases (recovers_iff (by decide) hr hb (Int.le_refl 1) hs).mp hall with hn | hn
    case inl => exact hn _ (by decide) hfirst
    case inr => exact hsixth (hn _ (by decide))

end LabelPlaylists.Favorites
