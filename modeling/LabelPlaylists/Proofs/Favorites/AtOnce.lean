import Mathlib.Data.Nat.Find
import LabelPlaylists.Proofs.Favorites.Contest

namespace LabelPlaylists.Favorites

open Library (Store Tables)
open Spotify (SavedTrack)

variable {ι : Type} {O : Outside} {i j : ι} {w : Shared ι}
variable {u : Int} {favorites : List SavedTrack} {l : Store} {n : Nat}

-- A library with nothing unsaved, in which just the oldest favorites of a user are stored, and there is room
-- for the others.
structure Awaits (u : Int) (favorites : List SavedTrack) (l : Store) : Prop where
  storable : Datum.IsStorable u
  distinct : (favorites.map (·.track.id)).Nodup
  saved    : l.saved = l.tables
  sound    : l.tables.Sound
  user     : u ∈ l.tables.users.map (·.id)
  room     : l.tables.lastTrack + favorites.length < 2 ^ 63
  oldest   : OldestStored l.tables u favorites

theorem Awaits.valid (h : Awaits u favorites l) : Valid u favorites l.tables (Shared.start l : Shared ι) where
  saved := h.saved
  grows := .refl
  sound := h.sound
  user  := h.user
  room  := by
    have : (fresh l.tables u favorites).length ≤ favorites.length := List.length_filter_le ..
    show l.tables.lastTrack + (fresh l.tables u favorites).length ≤ _
    omega
  found := fun _ hn f hf hs => absurd hs (hn.right f hf)
  added := fun _ _ ⟨_, _, _, he⟩ => by cases he
  once  := fun _ _ _ ⟨_, _, _, he⟩ => by cases he

theorem exists_not_entirelyNew (t : Tables) (u : Int) (favorites : List SavedTrack) :
    ∃ n, ¬EntirelyNew t u favorites n := by
  refine ⟨favorites.length, fun hn => ?_⟩
  have := hn.le_length
  have := le_offset (favorites.length + 1)
  omega

-- Whichever pull is the first to look up a page that is entirely new goes on to the next one.
theorem exists_stops [Nonempty ι] {t : Tables} (h : ∀ i, ∃ m, Stops u favorites t i m w)
    (hn : ∀ k < n, EntirelyNew t u favorites k) : ∃ i m, n ≤ m ∧ Stops u favorites t i m w := by
  induction n
  case zero =>
    have ⟨i⟩ := ‹Nonempty ι›
    have ⟨m, hm⟩ := h i
    exact ⟨i, m, Nat.zero_le m, hm⟩
  case succ n hi =>
    have ⟨i, m, hle, hm⟩ := hi fun k hk => hn k (Nat.lt_succ_of_lt hk)
    have ⟨j, hj⟩ := hm.found n (Nat.lt_succ_of_le hle) (hn n (Nat.lt_succ_self n))
    have ⟨m', hm'⟩ := h j
    exact ⟨j, m', hm'.finds n hj, hm'⟩

-- If all pulls come to their ends, then no favorite is left out.
theorem Awaits.stores [Nonempty ι] (hl : Awaits u favorites l) (hv : Valid u favorites l.tables w)
    (h : ∀ i, ∃ m, Stops u favorites l.tables i m w) {f : SavedTrack} (hf : f ∈ favorites) :
    Stores w.library.tables u f := by
  by_cases hs : Stores l.tables u f
  case pos => exact hv.grows.tracks hs
  case neg =>
    have hnew := exists_not_entirelyNew l.tables u favorites
    have ⟨i, m, hle, hm⟩ := exists_stops h fun k hk => not_not.mp (Nat.find_min hnew hk)
    have hmem := mem_take_of_not_entirelyNew hl.distinct.of_map hl.oldest (Nat.find_spec hnew) hf hs
    exact hm.stored f (List.take_subset_take_left favorites (offset_mono (Nat.succ_le_succ hle)) hmem)

-- Pulls of a user cannot take turns for ever. Whatever the order, they all succeed if and only if no favorite
-- is asked to be added by two of them, and then every favorite is stored once. Otherwise the library refuses
-- the second one of those, and with it the pull.
theorem pulls_complete_iff [DecidableEq ι] [Finite ι] [Nonempty ι] {side : ι → Storing} {pages : ι → Nat}
    {workers : ι → Int} (hd : Delivering O u favorites) (hl : Awaits u favorites l)
    (hside : ∀ i, (side i).IsParallel) (hp : ∀ i, favorites.length < pages i) (hw : ∀ i, 1 ≤ workers i) :
    Acc (fun p' p : (ι → Program Summary) × Shared ι => Turn O p.1 p.2 p'.1 p'.2)
      (fun i => pullBy (side i) (pages i) (workers i), .start l) ∧
    ∀ ts w, Interleaves O (fun i => pullBy (side i) (pages i) (workers i)) (.start l) ts w →
      (∀ i r next, ts i ≠ .ask r next) →
      ((∀ i, ∃ total, ts i = .done total) ↔
        ∀ i j x, AsksFor u x (w.past i) → AsksFor u x (w.past j) → i = j) ∧
      ((∀ i, ∃ total, ts i = .done total) → ∀ f ∈ favorites, w.library.tables.tracks.countP
        (fun r => r.userId = u ∧ r.spotifyId = f.track.id) = 1) ∧
      (∀ i e, ts i = .fail e → Loses u favorites i e w) ∧
      (w.library.tables.tracks.map fun r => (r.userId, r.spotifyId)).Nodup := by
  refine ⟨wellFounded_turn.apply _, fun ts w h hend => ?_⟩
  have ⟨hv, hc⟩ := h.copes (T := sharing ι O u favorites l.tables) hl.valid fun i =>
    copes_pullBy hl.room hd hl.storable hl.distinct (hside i) (hw i) (hp i) rfl
  have hdone : ∀ {i total}, ts i = .done total → ∃ m, Stops u favorites l.tables i m w := by
    intro i total he
    have hc := hc i
    rw [he] at hc
    exact hc.done_inv hv
  have hfail : ∀ i e, ts i = .fail e → Loses u favorites i e w := by
    intro i e he
    have hc := hc i
    rw [he] at hc
    exact hc.fail_inv hv
  refine ⟨⟨fun hall i j x hi hj => ?_, fun hone i => ?_⟩, fun hall f hf => ?_, hfail, hv.sound.trackNames⟩
  case refine_1 =>
    have ⟨_, hti⟩ := hall i
    have ⟨_, htj⟩ := hall j
    have ⟨_, hi'⟩ := hdone hti
    have ⟨_, hj'⟩ := hdone htj
    exact hv.once i j x (hi'.adds x hi) (hj'.adds x hj)
  case refine_2 =>
    cases ht : ts i
    case done total => exact ⟨total, rfl⟩
    case ask r next => exact absurd ht (hend i r next)
    case fail e     =>
      have ⟨_, f, _, hi, j, hj, hx⟩ := hfail i e ht
      exact absurd (hone j i _ hx hi) hj
  case refine_3 =>
    exact Stores.countP_eq_one (hl.stores hv (fun i => hdone (hall i).choose_spec) hf) hv.sound

namespace Sample

abbrev reply (favorites : List SavedTrack) (r : Request) : r.Reply :=
  (answer favorites (fun _ => true) r (scene tables)).1

theorem delivering {favorites : List SavedTrack} :
    Delivering (.still noon (reply favorites)) 1 favorites where
  clock h     := by
    show Moment.InRange _
    cases h
    decide
  session h   := ⟨_, h, rfl⟩
  grant h     := by
    cases h
    exact Option.isSome_iff_exists.mpr ⟨_, granted_grantText⟩
  expiry h hg hm := by
    cases h
    cases hm
    cases granted_grantText.symm.trans hg
    decide
  favorites h := h ▸ heard_savedTracks
  artists h   := by
    cases h
    exact ⟨_, congrArg Except.toOption (Spotify.artists_body _), by simp [Function.comp_def]⟩

def library : Store := ⟨"library", tables, tables, 0⟩

theorem awaits : Awaits 1 [favorite "t1"] library where
  storable := by decide
  distinct := by decide
  saved    := rfl
  sound    := tables_sound
  user     := by decide
  room     := by decide
  oldest   := ⟨[], List.nil_suffix, by decide⟩

-- The favorite is looked up by one pull, then pulled by another one, and then added by the first one.
@[irreducible]
def collided : (Bool → Program Summary) × Shared Bool :=
  takeTurns noon (reply [favorite "t1"])
    (List.replicate 15 false ++ List.replicate 20 true ++ List.replicate 5 false)
    (fun _ => pullBy inTurn 2 1) (.start library)

theorem interleaves_collided :
    Interleaves (.still noon (reply [favorite "t1"])) (fun _ => pullBy inTurn 2 1) (.start library)
      collided.1 collided.2 := by
  unfold collided
  exact interleaves_takeTurns .refl

theorem hasEnded_collided : ∀ i, (collided.1 i).hasEnded := by decide +kernel

theorem hasFailed_collided : (collided.1 false).hasFailed := by decide +kernel

end Sample

open Sample in
theorem pulls_collide : ∃ (ts : Bool → Program Summary) (w : Shared Bool) (e : Failure),
    Delivering (.still noon (reply [favorite "t1"])) 1 [favorite "t1"] ∧
    Awaits 1 [favorite "t1"] library ∧ Storing.IsParallel inTurn ∧
    Interleaves (.still noon (reply [favorite "t1"])) (fun _ => pull 2 1) (.start library) ts w ∧
    (∀ i r next, ts i ≠ .ask r next) ∧
    ts false = .fail e ∧ e = .library (.fault (.notUnique "tracks.user_id, tracks.spotify_id")) ∧
    AsksFor 1 "t1" (w.past false) ∧ AsksFor 1 "t1" (w.past true) ∧ ¬∀ i, ∃ total, ts i = .done total := by
  have h := interleaves_collided
  have hend : ∀ i r next, collided.1 i ≠ .ask r next := fun i r next he => by
    have := hasEnded_collided i
    rw [he] at this
    cases this
  have ⟨e, he⟩ := Program.hasFailed_iff.mp hasFailed_collided
  have hpages : ∀ _ : Bool, [favorite "t1"].length < 2 := fun _ => by decide
  have ⟨_, hall⟩ := pulls_complete_iff delivering awaits (fun _ => isParallel_inTurn) hpages
    fun _ => Int.le_refl 1
  have ⟨hiff, _, hloses, _⟩ := hall _ _ h hend
  have ⟨hfault, f, hf, hown, j, hj, hother⟩ := hloses false e he
  obtain rfl : f = favorite "t1" := List.mem_singleton.mp hf
  obtain rfl : j = true := by simpa using hj
  refine ⟨_, _, e, delivering, awaits, isParallel_inTurn, ?_, hend, he, hfault, hown, hother, fun hall => ?_⟩
  case refine_1 => exact (funext fun _ => pullBy_inTurn : (fun _ : Bool => pullBy inTurn 2 1) = _) ▸ h
  case refine_2 => exact Bool.false_ne_true (hiff.mp hall false true "t1" hown hother)

end LabelPlaylists.Favorites
