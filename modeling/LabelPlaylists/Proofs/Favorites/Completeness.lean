import LabelPlaylists.Proofs.Favorites.Loop
import LabelPlaylists.Proofs.Favorites.Sample

namespace LabelPlaylists.Favorites

open Library (Tables)
open Spotify (SavedTrack)

variable {u : Int} {favorites items : List SavedTrack} {t t' : Tables} {n : Nat}

theorem lt_of_mem_credits {last : Int} {c : Library.Credit} (h : c ∈ credits last items) :
    last < c.trackId := by
  induction items generalizing last
  case nil => cases h
  case cons i rest hi =>
    rcases List.mem_append.mp h with h | h
    case inl =>
      have ⟨_, _, he⟩ := List.mem_map.mp h
      rw [← he]
      exact Int.lt_succ last
    case inr => have := hi h; omega

-- A favorite that has been stored has a row and credits of its own.
theorem of_mem_rows {last : Int} {r : Library.Track} (h : r ∈ rows u last items) :
    ∃ i ∈ items, r = row u r.id i ∧ last < r.id ∧
      ∀ a, ⟨r.id, a⟩ ∈ credits last items ↔ a ∈ i.track.artists.map (·.id) := by
  induction items generalizing last
  case nil => cases h
  case cons i rest hi =>
    rcases List.mem_cons.mp h with h | h
    case inl =>
      subst h
      refine ⟨i, List.mem_cons_self, rfl, Int.lt_succ last, fun a => ?_⟩
      have hn : ⟨last + 1, a⟩ ∉ credits (last + 1) rest := fun hm => by
        have := lt_of_mem_credits hm
        dsimp only at this
        omega
      simp [credits, row, hn]
    case inr =>
      obtain ⟨j, hj, hr, hl, hc⟩ := hi h
      refine ⟨j, List.mem_cons_of_mem _ hj, hr, by omega, fun a => ?_⟩
      have hn : ⟨r.id, a⟩ ∉ i.track.artists.map fun b => (⟨last + 1, b.id⟩ : Library.Credit) := by
        intro hm
        obtain ⟨_, _, he⟩ := List.mem_map.mp hm
        have := congrArg Library.Credit.trackId he
        dsimp only at this
        omega
      rw [credits, List.mem_append, hc]
      simp only [hn, false_or]

theorem Stores.countP_eq_one {i : SavedTrack} (h : Stores t u i) (hs : t.Sound) :
    t.tracks.countP (fun r => r.userId = u ∧ r.spotifyId = i.track.id) = 1 := by
  have hc := List.count_eq_one_of_mem hs.trackNames h
  rw [List.count, List.countP_map] at hc
  rw [← hc]
  exact List.countP_congr fun r _ => by simp

-- The favorites that are stored are the oldest ones.
def OldestStored (t : Tables) (u : Int) (favorites : List SavedTrack) : Prop :=
  ∃ old, old <:+ favorites ∧ ∀ i ∈ favorites, Stores t u i ↔ i ∈ old

-- The first page that is not entirely new holds all that is new, or the rest of it.
theorem mem_take_of_not_entirelyNew (hn : favorites.Nodup) (ho : OldestStored t u favorites)
    (hl : ¬EntirelyNew t u favorites n) {i : SavedTrack} (hi : i ∈ favorites)
    (hs : ¬Stores t u i) : i ∈ favorites.take (offset (n + 1)) := by
  have ⟨old, ⟨new, hf⟩, hm⟩ := ho
  have hnew : i ∈ new := by
    rw [← hf] at hi
    exact (List.mem_append.mp hi).resolve_right (mt (hm i (hf ▸ hi)).mpr hs)
  rcases Nat.lt_or_ge (offset (n + 1)) new.length with hlt | hle
  case inr =>
    rw [← hf, List.take_append, List.take_of_length_le hle]
    exact List.mem_append_left _ hnew
  case inl =>
    -- The page would lie in front of all favorites that are stored.
    have ht : favorites.take (offset (n + 1)) = new.take (offset (n + 1)) := by
      rw [← hf, List.take_append_of_le_length (Nat.le_of_lt hlt)]
    refine (hl ⟨?_, fun j hj hs => ?_⟩).elim
    case refine_1 =>
      have hlen := congrArg List.length hf
      simp only [List.length_append, page, List.length_take, List.length_drop, offset] at *
      omega
    case refine_2 =>
      have hj' : j ∈ new.take (offset (n + 1)) := by
        rw [← ht, take_offset_succ]
        exact List.mem_append_right _ hj
      rw [← hf] at hn
      exact List.disjoint_of_nodup_append hn (List.take_subset _ _ hj')
        ((hm j (page_sublist.subset hj)).mp hs)

variable {σ : Type} {S : Surroundings σ} {G : σ → Prop} {s : σ} {workers : Int}

-- A pull that comes to its end leaves no favorite out if just the oldest have been stored.
theorem Ends.stores {s' : σ} (he : Ends S G u favorites n s s') (hb : Begins S G u favorites s)
    (ho : OldestStored (S.scene s).library.tables u favorites) {i : SavedTrack} (hi : i ∈ favorites) :
    Stores (S.scene s').library.tables u i := by
  have ⟨items, hp, ha⟩ := he.advances
  refine ha.gains.stores.mpr ?_
  by_cases hs : Stores (S.scene s).library.tables u i
  case pos => exact .inl hs
  case neg =>
    have ht := mem_take_of_not_entirelyNew (hb.distinct.of_map _) ho he.last hi hs
    rw [take_offset_succ] at ht
    refine .inr (List.mem_map_of_mem (hp.mem_iff.mpr (List.mem_append.mpr ?_)))
    exact (List.mem_append.mp ht).imp id fun h => mem_fresh.mpr ⟨h, hs⟩

-- A pull from a library in which just the oldest favorites are stored. If nothing fails,
-- 1. it comes to an end, with the first page that is not entirely new as the last one
-- 2. it has asked for the windows of the pages up to that one, each once and in order
-- 3. all favorites are stored, each exactly once
-- 4. the tracks that have been there are as they were, and each other one is a favorite with its artists
theorem pull_completes (hb : Begins S G u favorites s) (hd : ∀ n, Delivers S G n) (hw : 1 ≤ workers)
    (ho : OldestStored (S.scene s).library.tables u favorites) :
    ∃ m total s', S.Settles (fun pages => pull pages workers) s (.ok total) s' ∧
      (∀ k < m, EntirelyNew (S.scene s).library.tables u favorites k) ∧
      ¬EntirelyNew (S.scene s).library.tables u favorites m ∧
      fetched (S.scene s').calls = fetched (S.scene s).calls ++ (List.range (m + 1)).map window ∧
      (∀ i ∈ favorites, (S.scene s').library.tables.tracks.countP
        (fun r => r.userId = u ∧ r.spotifyId = i.track.id) = 1) ∧
      (S.scene s).library.tables.tracks <+: (S.scene s').library.tables.tracks ∧
      ∀ r ∈ (S.scene s').library.tables.tracks, r ∉ (S.scene s).library.tables.tracks →
        ∃ i ∈ favorites, r = row u r.id i ∧
          ∀ a, ⟨r.id, a⟩ ∈ (S.scene s').library.tables.credits ↔ a ∈ i.track.artists.map (·.id) := by
  have ⟨m, s', h⟩ := pull_settles hb hw
  rcases h with ⟨total, he, hs⟩ | ⟨_, hf, _⟩
  case inr => exact (hf.halts.choose_spec.right.left (hd m)).elim
  case inl =>
    have ⟨items, hp, ha⟩ := he.advances
    have hsound := hb.serves.sound.tables
    have hmem : ∀ i ∈ items, i ∈ favorites := fun i hi =>
      (List.mem_append.mp (hp.mem_iff.mp hi)).elim (List.take_subset _ _ ·)
        fun hi => page_sublist.subset (mem_fresh.mp hi).left
    refine ⟨m, total, s', hs, he.new, he.last, ha.fetched, ?_, ⟨_, ha.gains.tracks.symm⟩, ?_⟩
    case refine_1 =>
      exact fun i hi => Stores.countP_eq_one (he.stores hb ho hi) ha.serves.sound.tables
    case refine_2 =>
      intro r hr hn
      rw [ha.gains.tracks] at hr
      have ⟨i, hi, he, hl, hc⟩ := of_mem_rows ((List.mem_append.mp hr).resolve_left hn)
      refine ⟨i, hmem i hi, he, fun a => ?_⟩
      rw [ha.gains.credits, hc]
      refine ⟨fun h => h.resolve_left fun hm => ?_, .inr⟩
      -- The credits that have been there are those of tracks with lower numbers.
      have ⟨q, hq, hid⟩ := List.mem_map.mp (hsound.creditTracks (List.mem_map_of_mem hm))
      have := (hsound.trackNumbers q hq).right
      dsimp only at hid
      omega

namespace Sample

-- The oldest of six favorites is stored already.
def oldest : Tables :=
  { tables with tracks := [row 1 1 (favorite "t6")], lastTrack := 1 }

theorem oldest_sound : oldest.Sound := by
  constructor <;> simp [oldest, tables, user, row, favorite]

theorem begins {t : Tables} {reach : Nat → Bool} (h : t.Sound) (hu : 1 ∈ t.users.map (·.id))
    (hr : t.lastTrack + 6 < 2 ^ 63) :
    Begins (account six reach) (fun _ => True) 1 six (scene t) where
  offers   := offers
  serves   := serves h hu
  storable := by decide
  distinct := by decide
  room     := hr

end Sample

open Sample in
theorem pull_completes_oldest_stored :
    Begins (account six fun _ => true) (fun _ => True) 1 six (scene oldest) ∧
    (∀ n, Delivers (account six fun _ => true) (fun _ => True) n) ∧ OldestStored oldest 1 six ∧
    ∃ total s', (account six fun _ => true).Settles (fun pages => pull pages 1) (scene oldest) (.ok total) s' ∧
    fetched s'.calls = [(0, 5), (5, 25)] ∧
    (∀ i ∈ six, s'.library.tables.tracks.countP
      (fun r => r.userId = 1 ∧ r.spotifyId = i.track.id) = 1) ∧
    oldest.tracks <+: s'.library.tables.tracks := by
  have hb : Begins (account six fun _ => true) (fun _ => True) 1 six (scene oldest) :=
    begins oldest_sound (by decide) (by decide)
  have ho : OldestStored oldest 1 six :=
    ⟨[favorite "t6"], ⟨["t1", "t2", "t3", "t4", "t5"].map favorite, rfl⟩, by decide⟩
  have ⟨m, total, s', hs, hnew, hlast, hf, hc, hp, _⟩ :=
    pull_completes hb (fun _ => delivers rfl) (Int.le_refl 1) ho
  -- Just the first page is entirely new.
  have hm : m = 1 := by
    rcases Nat.lt_trichotomy m 1 with h | h | h
    · exact (hlast (by rw [Nat.lt_one_iff.mp h]; decide)).elim
    · exact h
    · exact absurd (hnew 1 h) (by decide)
  subst hm
  exact ⟨hb, fun _ => delivers rfl, ho, total, s', hs, hf, hc, hp⟩

end LabelPlaylists.Favorites
