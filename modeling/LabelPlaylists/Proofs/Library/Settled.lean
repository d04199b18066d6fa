import LabelPlaylists.Proofs.Library.Answer
import LabelPlaylists.Proofs.Library.Effect

namespace LabelPlaylists.Library

-- An operation that ends by making its changes permanent.
def Command.Writes : Command → Prop
  | .putUser .. | .setTokens .. | .addTrack .. | .addLabel .. | .setCriteria .. | .addMembership ..
  | .removeMembership .. | .addPlaylist .. => True
  | .addAlbums albums   => albums ≠ []
  | .addArtists artists => artists ≠ []
  | _                   => False

namespace Work

variable {s s' : Store}

theorem bound_inv {values : List Datum} {a : Unit} (h : bound values s = (.ok a, s')) :
    s' = s ∧ ∀ v ∈ values, Accepts v := by
  unfold bound at h
  split at h
  case h_1 hn => cases h; exact ⟨rfl, refusal?_eq_none_iff.mp hn⟩
  case h_2    => cases h

-- What each statement keeps holds after statements for every item.
theorem changeEach_inv {values : α → List Datum} {f : α → Tables → Change} {items : List α} {n : Nat}
    {I : Tables → Prop} (hf : ∀ {a t t' n}, a ∈ items → f a t = .ok (t', n) → I t → I t')
    (h : changeEach values f items s = (.ok n, s')) (hi : I s.tables) : I s'.tables := by
  induction items generalizing s n
  case nil => cases h; exact hi
  case cons a rest hr =>
    have ⟨_, s₁, hb, h⟩ := bind_inv h
    have ⟨_, s₂, hc, h⟩ := bind_inv h
    have ⟨_, s₃, he, h⟩ := bind_inv h
    cases h
    have ⟨t, ht, hs⟩ := change_inv hc
    refine hr (fun hm => hf (List.mem_cons_of_mem _ hm)) he ?_
    rw [hs]
    exact hf List.mem_cons_self ht ((bound_inv hb).left ▸ hi)

-- Statements that find nothing to change leave all as it is.
theorem changeEach_idle {values : α → List Datum} {f : α → Tables → Tables × Nat} {items : List α}
    (hv : ∀ a ∈ items, ∀ v ∈ values a, Accepts v) (hf : ∀ a ∈ items, f a s.tables = (s.tables, 0)) :
    changeEach values (fun a t => .ok (f a t)) items s = (.ok 0, s) := by
  induction items
  case nil => rfl
  case cons a rest hr =>
    have ⟨hva, hv⟩ := List.forall_mem_cons.mp hv
    have ⟨hfa, hf⟩ := List.forall_mem_cons.mp hf
    have hc : change (fun t => .ok (f a t)) s = (.ok 0, s) := by simp [change, hfa]
    rw [changeEach, bind_ok (bound_ok hva s), bind_ok hc, bind_ok (hr hv hf)]
    rfl

-- A part of an operation after which nothing is left to be made permanent.
def Commits (w : Work α) : Prop := ∀ s a s', w s = (.ok a, s') → s'.saved = s'.tables

theorem Commits.bind {w : Work α} {f : α → Work β} (hf : ∀ a, Commits (f a)) : Commits (w >>= f) := by
  intro s b s' h
  have ⟨a, _, _, h⟩ := bind_inv h
  exact hf a _ _ _ h

theorem Commits.commit : Commits commit := by
  intro s a s' h
  cases h
  rfl

theorem Commits.andThen {f : Unit → Work α} (hf : ∀ s, (f () s).2 = s) : Commits (Work.commit >>= f) := by
  intro s b s' h
  have ⟨a, s₁, hc, h⟩ := bind_inv h
  have he : s' = s₁ := (congrArg Prod.snd h).symm.trans (hf s₁)
  exact he ▸ Commits.commit _ _ _ hc

end Work

namespace Store

open Work (Commits)

variable {s s' : Store} {now : Moment} {c : Command}

theorem perform_eq_ok_iff {a : c.Reply} : s.perform now c = (.ok a, s') ↔ work now c s = (.ok a, s') := by
  refine ⟨fun h => ?_, perform_ok⟩
  unfold perform at h
  split at h
  case h_1 => cases h
  case h_2 => exact h

-- An operation that changes rows and ends well leaves nothing unsaved.
theorem perform_writes {a : c.Reply} (hc : c.Writes) (h : s.perform now c = (.ok a, s')) :
    s'.saved = s'.tables := by
  suffices hw : Commits (work now c) from hw _ _ _ (perform_eq_ok_iff.mp h)
  cases c <;> simp only [work]
  case putUser        => exact .bind fun _ => .bind fun _ => .bind fun _ => .andThen fun _ => rfl
  case setTokens      => exact .bind fun _ => .bind fun _ => .bind fun _ => .commit
  case addTrack       =>
    exact .bind fun _ => .bind fun _ => .bind fun _ => .bind fun _ => .andThen fun _ => rfl
  case addLabel       => exact .bind fun _ => .bind fun _ => .bind fun _ => .andThen fun _ => rfl
  case addMembership  => exact .bind fun _ => .bind fun _ => .bind fun _ => .commit
  case removeMembership => exact .bind fun _ => .bind fun _ => .bind fun _ => .commit
  case addPlaylist    => exact .bind fun _ => .bind fun _ => .andThen fun _ => rfl
  case setCriteria    =>
    refine .bind fun _ => .bind fun _ => ?_
    split
    case isTrue  => exact .bind fun _ => .commit
    case isFalse => exact Commits.commit
  case addAlbums albums =>
    have hn : albums.isEmpty = false := by simpa [Command.Writes] using hc
    simp only [hn, Bool.false_eq_true, if_false]
    exact .bind fun _ => .andThen fun _ => rfl
  case addArtists artists =>
    have hn : artists.isEmpty = false := by simpa [Command.Writes] using hc
    simp only [hn, Bool.false_eq_true, if_false]
    exact .bind fun _ => .andThen fun _ => rfl
  all_goals cases hc

-- Albums and artists that are there are not added again.

theorem perform_addAlbums_idle (now : Moment) {albums : List AlbumValues}
    (hv : ∀ a ∈ albums, ∀ v ∈ albumValues a, Accepts v)
    (h : ∀ a ∈ albums, s.tables.addAlbum a = (s.tables, 0)) :
    ∃ s', s.perform now (.addAlbums albums) = (.ok 0, s') ∧
      s'.tables = s.tables ∧ s'.changes = s.changes := by
  cases albums
  case nil => exact ⟨s, rfl, rfl, rfl⟩
  case cons a rest =>
    exact ⟨{ s with saved := s.tables }, perform_ok (Work.bind_ok (Work.changeEach_idle hv h)), rfl, rfl⟩

theorem perform_addArtists_idle (now : Moment) {artists : List ArtistValues}
    (hv : ∀ a ∈ artists, ∀ v ∈ artistValues a, Accepts v)
    (h : ∀ a ∈ artists, s.tables.addArtist a = (s.tables, 0)) :
    ∃ s', s.perform now (.addArtists artists) = (.ok 0, s') ∧
      s'.tables = s.tables ∧ s'.changes = s.changes := by
  cases artists
  case nil => exact ⟨s, rfl, rfl, rfl⟩
  case cons a rest =>
    exact ⟨{ s with saved := s.tables }, perform_ok (Work.bind_ok (Work.changeEach_idle hv h)), rfl, rfl⟩

-- Tracks have been looked up, so the number of the user is one that the store takes.
theorem perform_knownTracks_inv {user : Datum} {ids : List Datum} {known : List String}
    (hn : ids ≠ []) (h : s.perform now (.knownTracks user ids) = (.ok known, s')) :
    Accepts user ∧ s' = s ∧ known = s.tables.knownTracks user ids := by
  have h := perform_eq_ok_iff.mp h
  have he : ids.isEmpty = false := by simpa using hn
  simp only [work, he, Bool.false_eq_true, if_false] at h
  obtain ⟨_, _, hb, h⟩ := Work.bind_inv h
  obtain ⟨hs, ha⟩ := Work.bound_inv hb
  cases h
  exact ⟨ha _ List.mem_cons_self, hs, hs ▸ rfl⟩

-- A track that is added is there afterwards.
theorem perform_addTrack_inv {user : Datum} {u : Int} {v : TrackValues} {id : String}
    {artists : List Datum} {k : Int} (hu : user.whole? = some u) (hi : v.spotifyId.text? = some id)
    (h : s.perform now (.addTrack user v artists) = (.ok k, s')) :
    (u, id) ∈ s'.tables.tracks.map fun r => (r.userId, r.spotifyId) := by
  have ⟨_, s₁, _, h₁⟩ := Work.bind_inv (perform_eq_ok_iff.mp h)
  have ⟨_, s₂, hc, h₂⟩ := Work.bind_inv h₁
  have ⟨_, s₃, hd, h₃⟩ := Work.bind_inv h₂
  have ⟨_, s₄, he, h₄⟩ := Work.bind_inv h₃
  have ⟨t, ht, hs₂⟩ := Work.change_inv hc
  cases hd
  cases h₄
  refine Work.changeEach_inv (I := fun t => (u, id) ∈ t.tracks.map fun r => (r.userId, r.spotifyId))
    (fun hm e h => ?_) he ?_
  case refine_1 =>
    exact Tables.tracks_addCredit e ▸ h
  case refine_2 =>
    rw [hs₂]
    simp only [Tables.addTrack, bind_eq_ok_iff, required_eq_ok_iff, hi] at ht
    obtain ⟨owner, ho, _, hi, _, _, _, _, _, _, ht⟩ := ht
    cases hi
    cases (whole?_of_requiredReference ho).symm.trans hu
    dsimp only at ht
    split at ht
    case isTrue => cases ht
    case isFalse =>
      split at ht <;> cases ht
      simp

end Store

end LabelPlaylists.Library
