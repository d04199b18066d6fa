import LabelPlaylists.Proofs.Favorites.Carried
import LabelPlaylists.Proofs.Library.Settled

namespace LabelPlaylists

namespace Favorites

open Account (renewed)
open Library (Growing Tables)
open Spotify (Artist Call SavedTrack Schema)

-- A user is in session, and something holds of the library, of what is saved of it as well.
structure Holds (u : Int) (I : Tables → Prop) (a : Scene) : Prop where
  session : ∃ x, a.session = some x ∧ x.userId = u
  tables  : I a.library.tables
  saved   : I a.library.saved

variable {σ : Type} {S : Surroundings σ} {u : Int} {I : Tables → Prop} {s s' : σ} {es : List Exchange}

theorem holds_lasting (hi : Growing I) : S.Lasting (Holds u I) where
  rests := by
    intro s s' hr h
    rcases hr with hs | ⟨x, g, m, hx, _, _, _, t, _, ht, hs⟩ <;> rw [hs]
    case inl => exact h
    case inr =>
      have ⟨y, hy, hu⟩ := h.session
      cases hx.symm.trans hy
      have hm : I t := hi _ _ (Library.Command.Effect.of_setTokens (m := m) ht).grows h.tables
      exact ⟨⟨_, rfl, hu⟩, hm, hm⟩
  call  := fun _ h => ⟨h.session, h.tables, h.saved⟩

theorem carries_holds (hi : Growing I) : Carries S (fun _ => True) (Holds u I) where
  session _ _ := trivial
  lasting := holds_lasting hi
  library := fun _ _ _ h =>
    have ⟨ht, hs⟩ := Library.Store.perform_keeps (fun e => hi _ _ e.effect.grows) h.tables h.saved
    ⟨h.session, ht, hs⟩

namespace Holds

variable {workers : Int}

theorem addMissingArtists (hi : Growing I) {ids : List String} :
    S.Preserves (Holds u I) (addMissingArtists ids) :=
  (carries_holds hi).addMissingArtists

theorem addTracks (hi : Growing I) {v : Int} {items : List SavedTrack} :
    S.Preserves (Holds u I) (addTracks v items) :=
  (carries_holds hi).addTracks trivial

theorem savedTracks (hi : Growing I) {offset limit : Int} :
    S.Preserves (Holds u I) (Account.Service.savedTracks offset limit) :=
  (carries_holds hi).savedTracks

theorem pullFrom (hi : Growing I) {pages offset limit : Nat} {sum : Summary} :
    S.Preserves (Holds u I) (pullFrom workers pages offset limit sum) :=
  (carries_holds hi).pullFrom

theorem finish {sum : Summary} : S.Preserves (Holds u I) (finish sum) :=
  Carries.finish

end Holds

-- What Spotify shows as long as nothing changes there: the favorites in the windows within reach, and
-- for each artist what is found under its id, whichever others are looked up with it. Nothing may be found
-- under an id, and there may be ids that cannot be looked up at all.
structure Shows (S : Surroundings σ) (G : σ → Prop) (favorites : List SavedTrack)
    (reach : Nat → Nat → Bool) (lookup : String → Option (List Artist)) : Prop where
  keeps     : S.Keeps G
  favorites : ∀ {s token} {offset limit : Nat}, G s →
    heard Schema.savedTracks (S.answer (.call token (.savedTracks limit offset)) s).1
      = if reach offset limit then some ⟨(favorites.drop offset).take limit⟩ else none
  artists   : ∀ {s token} {ids : List String}, G s →
    heard Schema.artists (S.answer (.call token (.artists ids)) s).1
      = if ids.all fun id => (lookup id).isSome then
          some ⟨ids.flatMap fun id => (lookup id).getD []⟩
        else none

-- Favorites of which nothing is left to be stored: their albums, their artists as far as these can be
-- found, and their tracks are there.
structure Complete (u : Int) (lookup : String → Option (List Artist)) (items : List SavedTrack)
    (t : Tables) : Prop where
  albums  : ∀ i ∈ items, some i.track.album.id ∈ t.albums.map (·.id)
  artists : ∀ a ∈ artistIdsOf items, some a ∈ t.artists.map (·.id) ∨
    ∃ found, lookup a = some found ∧ ∀ b ∈ found, some b.id ∈ t.artists.map (·.id)
  tracks  : ∀ i ∈ items, Stores t u i

variable {G : σ → Prop} {favorites items : List SavedTrack} {reach : Nat → Nat → Bool}
variable {lookup : String → Option (List Artist)} {t t' : Tables} {workers : Int}

-- Artists that are there or of which nothing new is found.
def Found (lookup : String → Option (List Artist)) (ids : List String) (t : Tables) : Prop :=
  ∀ a ∈ ids, some a ∈ t.artists.map (·.id) ∨
    ∃ found, lookup a = some found ∧ ∀ b ∈ found, some b.id ∈ t.artists.map (·.id)

theorem growing_stores {i : SavedTrack} : Growing (Stores · u i) :=
  fun _ _ hg h => hg.tracks h

theorem growing_found {ids : List String} : Growing (Found lookup ids) := by
  intro t t' hg h a ha
  rcases h a ha with h | ⟨found, hl, h⟩
  case inl => exact .inl (hg.artists h)
  case inr => exact .inr ⟨found, hl, fun b hb => hg.artists (h b hb)⟩

theorem growing_complete : Growing (Complete u lookup items) := fun t t' hg h =>
  ⟨fun i hi => hg.albums (h.albums i hi), growing_found t t' hg h.artists,
    fun i hi => hg.tracks (h.tracks i hi)⟩

-- A library with nothing unsaved.
def Settled (a : Scene) : Prop := a.library.saved = a.library.tables

theorem settled_lasting : S.Lasting Settled where
  rests := by
    intro s s' hr h
    rcases hr with hs | ⟨_, _, _, _, _, _, _, _, _, _, hs⟩ <;> rw [hs]
    case inl => exact h
    case inr => rfl
  call  := fun _ h => h

open Surroundings (Preserves Runs)

-- The artists among the given ones that are not there.
def absent (t : Tables) (ids : List String) : List String :=
  ids.filter fun id => !(t.artists.map (·.id)).contains (some id)

theorem there_of_notMem_absent {ids : List String} {a : String} (ha : a ∈ ids) (h : a ∉ absent t ids) :
    some a ∈ t.artists.map (·.id) :=
  of_not_not fun hn => h (List.mem_filter.mpr ⟨ha, by simpa using hn⟩)

-- What has been done when artists have been added as far as they were missing.
theorem addMissingArtists_ok_inv {ids : List String} {k : Nat}
    (h : S.Runs (addMissingArtists ids) s es (.ok k) s') :
    ∃ known s₁ es₁ rest, S.Runs (Program.library (.knownArtists (ids.map .text))) s es₁ (.ok known) s₁ ∧
      S.scene s₁ = S.scene s ∧ es = es₁ ++ rest ∧
      ((absent (S.scene s).library.tables ids = [] ∧ rest = [] ∧ k = 0 ∧ s' = s₁) ∨
        ∃ found s₂ es₂ es₃,
          S.Runs (Account.Service.artists (absent (S.scene s).library.tables ids)) s₁ es₂ (.ok found) s₂ ∧
          S.Runs (Program.library (.addArtists (found.map artistValues))) s₂ es₃ (.ok k) s' ∧ rest = es₂ ++ es₃) := by
  obtain ⟨known, s₁, es₁, rest, he, hk, h⟩ := h.bind_ok_inv
  refine ⟨known, s₁, es₁, rest, hk, ?_⟩
  have hp := (S.scene s).library.perform_knownArtists (S.clock s) (ids.map .text) (by simp)
  obtain ⟨ho, hs₁⟩ := hk.library_ok_inv (fun _ _ hf => by cases hf) hp
  cases ho
  have habsent : (ids.filter fun id => !((S.scene s).library.tables.knownArtists (ids.map .text)).contains id)
      = absent (S.scene s).library.tables ids := by
    refine List.filter_congr fun id hid => ?_
    have hm := Tables.mem_knownArtists (t := (S.scene s).library.tables) ⟨.text id, List.mem_map_of_mem hid, rfl⟩
    rw [Bool.eq_iff_iff]
    simp [hm]
  dsimp only at h
  rw [habsent] at h
  refine ⟨hs₁, he, ?_⟩
  split at h
  case isTrue hn =>
    obtain ⟨hr, ho, hs'⟩ := h.done_inv
    cases ho
    exact .inl ⟨List.isEmpty_iff.mp hn, hr, rfl, hs'⟩
  case isFalse =>
    obtain ⟨found, s₂, es₂, es₃, he₂, ha, h⟩ := h.bind_ok_inv
    exact .inr ⟨found, s₂, es₂, es₃, ha, h, he₂⟩

namespace Shows

variable (hs : Shows S G favorites reach lookup)
include hs

-- A window has been answered, so it is within reach.
theorem savedTracks_inv {offset limit : Nat} {found : Spotify.SavedTracks} (hg : G s)
    (h : S.Runs (Account.Service.savedTracks offset limit) s es (.ok found) s') :
    reach offset limit ∧ found.items = (favorites.drop offset).take limit := by
  have ⟨_, s₁, _, _, _, hl, h⟩ := h.bind_ok_inv
  have ⟨_, _, _, ht, _, _, ha⟩ := h.call_ok_inv
  rw [hs.favorites (ht.good hs.keeps (hl.good hs.keeps hg))] at ha
  split at ha
  case isFalse   => cases ha
  case isTrue hr => cases ha; exact ⟨hr, rfl⟩

-- All artists could be looked up, and each has been answered on its own.
theorem artists_inv {ids : List String} {found : List Artist} (hg : G s)
    (h : S.Runs (Account.Service.artists ids) s es (.ok found) s') :
    (∀ id ∈ ids, (lookup id).isSome) ∧ found = ids.flatMap fun id => (lookup id).getD [] := by
  suffices hb : ∀ (batches : List (List String)) {s es s' found}, G s →
      S.Runs (Account.Service.artistsOf batches) s es (.ok found) s' →
      (∀ id ∈ batches.flatten, (lookup id).isSome) ∧
        found = batches.flatten.flatMap fun id => (lookup id).getD [] by
    have := hb _ hg h
    rwa [flatten_pieces] at this
  intro batches
  induction batches
  case nil =>
    intro s es s' found _ h
    cases h.done_inv.right.left
    exact ⟨nofun, rfl⟩
  case cons batch rest hr =>
    intro s es s' found hg h
    have ⟨_, s₁, _, _, _, hl, h⟩ := h.bind_ok_inv
    have ⟨answer, s₂, _, _, _, hc, h⟩ := h.bind_ok_inv
    have ⟨others, s₃, _, _, _, ho, h⟩ := h.bind_ok_inv
    have hg₁ := hl.good hs.keeps hg
    have ⟨_, _, _, ht, _, _, ha⟩ := hc.call_ok_inv
    rw [hs.artists (ht.good hs.keeps hg₁)] at ha
    have ⟨hi, hf⟩ := hr (hc.good hs.keeps hg₁) ho
    cases h.done_inv.right.left
    split at ha
    case isFalse   => cases ha
    case isTrue hb =>
      cases ha
      rw [List.flatten_cons]
      refine ⟨fun id hm => ?_, by rw [hf, List.flatMap_append]⟩
      exact (List.mem_append.mp hm).elim (List.all_eq_true.mp hb id) (hi id)

-- After the artists have been added, each is there as far as it can be found.
theorem addMissingArtists_inv {ids : List String} {k : Nat} (hg : G s) (hn : Settled (S.scene s))
    (hu : ∃ x, (S.scene s).session = some x ∧ x.userId = u)
    (h : S.Runs (addMissingArtists ids) s es (.ok k) s') :
    Holds u (Found lookup ids) (S.scene s') ∧ Settled (S.scene s') := by
  obtain ⟨_, s₁, _, _, hk, hs₁, _, h⟩ := addMissingArtists_ok_inv h
  have hg₁ := hk.good hs.keeps hg
  rw [← hs₁] at hn hu h
  rcases h with ⟨he, _, _, rfl⟩ | ⟨found, s₂, _, _, ha, h, _⟩
  case inl =>
    have hf : Found lookup ids (S.scene s').library.tables := fun a ha =>
      .inl (there_of_notMem_absent ha (by rw [he]; exact List.not_mem_nil))
    exact ⟨⟨hu, hf, hn ▸ hf⟩, hn⟩
  case inr =>
    -- What is there stays there while the others are looked up.
    have hthere : Holds u (fun t => ∀ a ∈ ids, a ∉ absent (S.scene s₁).library.tables ids →
        some a ∈ t.artists.map (·.id)) (S.scene s₁) :=
      have h a ha hm := there_of_notMem_absent (a := a) ha hm
      ⟨hu, h, hn ▸ h⟩
    have hgrows : Growing fun t => ∀ a ∈ ids, a ∉ absent (S.scene s₁).library.tables ids →
        some a ∈ t.artists.map (·.id) :=
      fun _ _ hg h a ha hm => hg.artists (h a ha hm)
    have hthere := Preserves.artists (holds_lasting hgrows) _ _ _ _ ha hthere
    have hn := Preserves.artists settled_lasting _ _ _ _ ha hn
    obtain ⟨hlook, hf⟩ := hs.artists_inv hg₁ ha
    obtain ⟨_, l, hp, ht⟩ := (S.scene s₂).library.perform_addArtists (S.clock s₂)
      (found.map artistValues) (by simp [artistValues, Library.Store.artistValues])
    obtain ⟨hg, hnew⟩ := Gains.addArtists (u := u) found (t := (S.scene s₂).library.tables)
    rw [← ht] at hg hnew
    obtain ⟨_, hs'⟩ := h.library_ok_inv (fun _ _ he => by cases he) hp
    have hl : l.saved = l.tables := by
      by_cases he : found.map artistValues = []
      case pos => rw [he] at hp; cases hp; exact hn
      case neg => exact Library.Store.perform_writes (c := .addArtists _) he hp
    have hall : Found lookup ids l.tables := by
      intro a ha
      by_cases hm : a ∈ absent (S.scene s₁).library.tables ids
      case neg => exact .inl (hg.artists (hthere.tables a ha hm))
      case pos =>
        obtain ⟨answer, hw⟩ := Option.isSome_iff_exists.mp (hlook a hm)
        refine .inr ⟨answer, hw, fun b hb => hnew b ?_⟩
        rw [hf]
        exact List.mem_flatMap.mpr ⟨a, hm, by rw [hw]; exact hb⟩
    rw [hs']
    exact ⟨⟨hthere.session, hall, hl ▸ hall⟩, hl⟩

end Shows

-- The albums of a page that is not empty are there once they have been added.
theorem addAlbums_inv {k : Nat} (hn : items ≠ [])
    (h : S.Runs (Program.library (.addAlbums ((albumsOf items).map albumValues))) s es (.ok k) s') :
    Settled (S.scene s') ∧ (S.scene s').session = (S.scene s).session ∧
      ∀ i ∈ items, some i.track.album.id ∈ (S.scene s').library.tables.albums.map (·.id) := by
  obtain ⟨_, l, hp, ht⟩ := (S.scene s).library.perform_addAlbums (S.clock s)
    ((albumsOf items).map albumValues) (by simp [albumValues, Library.Store.albumValues])
  obtain ⟨_, hm⟩ := Gains.addAlbums (u := 0) (albumsOf items) (t := (S.scene s).library.tables)
  rw [← ht] at hm
  have halbum : ∀ i ∈ items, ∃ a ∈ albumsOf items, a.id = i.track.album.id := fun i hi =>
    List.mem_map.mp (mem_ids_albumsOf.mpr (List.mem_map_of_mem hi))
  obtain ⟨i, hi⟩ := List.exists_mem_of_ne_nil _ hn
  obtain ⟨a, ha, _⟩ := halbum i hi
  have hw : (albumsOf items).map albumValues ≠ [] := List.ne_nil_of_mem (List.mem_map_of_mem ha)
  obtain ⟨_, hs⟩ := h.library_ok_inv (fun _ _ he => by cases he) hp
  rw [hs]
  refine ⟨Library.Store.perform_writes (c := .addAlbums _) hw hp, rfl, fun i hi => ?_⟩
  obtain ⟨a, ha, he⟩ := halbum i hi
  exact he ▸ hm a ha

theorem addTracks_inv {a : Unit} (hn : Settled (S.scene s))
    (hu : ∃ x, (S.scene s).session = some x ∧ x.userId = u)
    (h : S.Runs (addTracks u items) s es (.ok a) s') :
    Settled (S.scene s') ∧ ∀ i ∈ items, Stores (S.scene s').library.tables u i := by
  induction items generalizing s es
  case nil => exact ⟨h.done_inv.right.right ▸ hn, nofun⟩
  case cons i rest hi =>
    have ⟨k, s₁, _, _, _, hadd, h⟩ := h.bind_ok_inv
    have ⟨_, _, s₂, _, hs₂, h⟩ := h.log_bind_inv
    have ⟨_, ho, hs₁⟩ := hadd.library_inv (by nofun)
    cases hp : (S.scene s).library.perform (S.clock s) (.addTrack (.integer u) (trackValues i)
      (i.track.artists.map fun a => .text a.id))
    case mk reply l =>
      rw [hp] at ho hs₁
      cases reply
      case error => cases ho
      case ok m =>
        have hst : Stores l.tables u i := Library.Store.perform_addTrack_inv rfl rfl hp
        have hl : l.saved = l.tables :=
          Library.Store.perform_writes (c := .addTrack ..) trivial hp
        have hs₂ := hs₂.trans hs₁
        have hh : Holds u (Stores · u i) (S.scene s₂) := by
          rw [hs₂]
          exact ⟨hu, hst, (show Stores l.saved u i from hl ▸ hst)⟩
        have ⟨hn, hr⟩ := hi (by rw [hs₂]; exact hl) hh.session h
        have hh := Holds.addTracks growing_stores _ _ _ _ h hh
        exact ⟨hn, List.forall_mem_cons.mpr ⟨hh.tables, hr⟩⟩

-- Of each track one item is new, unless the track is known.
theorem mem_newItems (known : List String) {i : SavedTrack} (hi : i ∈ items) :
    i.track.id ∈ known ∨ i.track.id ∈ (newItems known items).map (·.track.id) := by
  induction items generalizing known
  case nil => cases hi
  case cons j rest hr =>
    rw [newItems]
    split
    case isTrue hk =>
      rcases List.mem_cons.mp hi with rfl | hi
      case inl => exact .inl (List.contains_iff_mem.mp hk)
      case inr => exact hr known hi
    case isFalse =>
      rcases List.mem_cons.mp hi with rfl | hi
      case inl => exact .inr (by simp)
      case inr =>
        rcases hr (j.track.id :: known) hi with h | h
        case inr => exact .inr (List.mem_cons_of_mem _ h)
        case inl =>
          rcases List.mem_cons.mp h with h | h
          case inl => exact .inr (by simp [h])
          case inr => exact .inl h

theorem required_inv {found : Except Failure α} {a : α}
    (h : S.Runs (required found) s es (.ok a) s') : found = .ok a ∧ s' = s ∧ es = [] := by
  cases found
  case error => cases h.fail_inv.right.left
  case ok    =>
    obtain ⟨he, ho, hs⟩ := h.done_inv
    cases ho
    exact ⟨rfl, hs, he⟩

-- What has been done, one after the other, when a page that is not empty has been added.
theorem addPage_ok_inv {sum : Summary} {r : Nat × Summary} (hn : items ≠ [])
    (h : S.Runs (addPage workers items sum) s es (.ok r) s') :
    1 ≤ workers ∧ ∃ a b x known s₁ s₂ s₃ s₄ es₁ es₂ es₃ es₄ es₅,
      S.Runs (Program.library (.addAlbums ((albumsOf items).map albumValues))) s es₁ (.ok a) s₁ ∧
      S.Runs (addMissingArtists (artistIdsOf items)) s₁ es₂ (.ok b) s₂ ∧
      S.Runs Program.session s₂ es₃ (.ok x) s₃ ∧
      S.Runs (Program.library (.knownTracks (.integer x.userId) (items.map fun i => .text i.track.id)))
        s₃ es₄ (.ok known) s₄ ∧
      S.Runs (addTracks x.userId (oldestFirst (newItems known items))) s₄ es₅ (.ok ()) s' ∧
      es = es₁ ++ es₂ ++ es₃ ++ es₄ ++ es₅ ∧
      r = ((newItems known items).length,
        { sum with albums := sum.albums + a, artists := sum.artists + b,
                   tracks := sum.tracks + (newItems known items).length }) := by
  unfold Favorites.addPage at h
  split at h
  case isTrue he => exact absurd (List.isEmpty_iff.mp he) hn
  case isFalse =>
    split at h
    case isTrue => cases h.fail_inv.right.left
    case isFalse hw =>
      obtain ⟨_, s₁, es₁, _, he₁, ha, h⟩ := h.bind_ok_inv
      obtain ⟨_, s₂, es₂, _, he₂, hb, h⟩ := h.bind_ok_inv
      obtain ⟨a, _, _, _, he₃, hra, h⟩ := h.bind_ok_inv
      obtain ⟨b, _, _, _, he₄, hrb, h⟩ := h.bind_ok_inv
      obtain ⟨hra, hs₃, hn₃⟩ := required_inv hra
      obtain ⟨hrb, hs₄, hn₄⟩ := required_inv hrb
      obtain ⟨_, ho, ha⟩ := ha.outcome_inv
      cases ho
      obtain ⟨_, ho, hb⟩ := hb.outcome_inv
      cases ho
      rw [hra] at ha
      rw [hrb] at hb
      rw [hs₄, hs₃] at h
      obtain ⟨x, s₅, es₅, _, he₅, hx, h⟩ := h.bind_ok_inv
      obtain ⟨known, s₆, es₆, _, he₆, hk, h⟩ := h.bind_ok_inv
      obtain ⟨_, s₇, es₇, _, he₇, ht, h⟩ := h.bind_ok_inv
      obtain ⟨hn₈, ho, hs₈⟩ := h.done_inv
      cases ho
      refine ⟨by omega, a, b, x, known, s₁, s₂, s₅, s₆, es₁, es₂, es₅, es₆, es₇, ha, hb, hx, hk, hs₈ ▸ ht, ?_, rfl⟩
      simp [he₁, he₂, he₃, hn₃, he₄, hn₄, he₅, he₆, he₇, hn₈]

namespace Shows

variable (hs : Shows S G favorites reach lookup)
include hs

-- Nothing of a page is left to be stored once it has been added.
theorem addPage_inv {sum : Summary} {r : Nat × Summary} (hg : G s)
    (hu : ∃ x, (S.scene s).session = some x ∧ x.userId = u)
    (h : S.Runs (addPage workers items sum) s es (.ok r) s') :
    Holds u (Complete u lookup items) (S.scene s') ∧
      (items ≠ [] → 1 ≤ workers ∧ Datum.IsStorable u) := by
  by_cases he : items = []
  case pos =>
    subst he
    have hc : ∀ t, Complete u lookup [] t := fun t => ⟨nofun, nofun, nofun⟩
    rw [h.done_inv.right.right]
    exact ⟨⟨hu, hc _, hc _⟩, fun hn => (hn rfl).elim⟩
  case neg =>
    obtain ⟨hw, _, _, x, known, s₁, s₂, s₃, s₄, _, _, _, _, _, halb, hart, hses, hk, hadd, _, _⟩ :=
      addPage_ok_inv he h
    -- What has been added stays until the page has come to its end.
    have ⟨hn₁, hx₁, halbums⟩ := addAlbums_inv he halb
    have hg₁ := halb.good hs.keeps hg
    have hh₁ : Holds u (fun t => ∀ i ∈ items, some i.track.album.id ∈ t.albums.map (·.id)) (S.scene s₁) :=
      ⟨hx₁ ▸ hu, halbums, hn₁ ▸ halbums⟩
    have hgrow : Growing fun t => ∀ i ∈ items, some i.track.album.id ∈ t.albums.map (·.id) :=
      fun _ _ hg h i hi => hg.albums (h i hi)
    have hh₁ := Holds.addMissingArtists hgrow _ _ _ _ hart hh₁
    have ⟨hf₂, hn₂⟩ := hs.addMissingArtists_inv hg₁ hn₁ (hx₁ ▸ hu) hart
    have ⟨y, hy, hyu⟩ := hf₂.session
    have ⟨_, hx, hs₃⟩ := hses.session_ok_inv
    have hxu : x.userId = u := Option.some.inj (hy.symm.trans hx) ▸ hyu
    rw [hxu] at hk hadd
    have ⟨_, ho, hs₄⟩ := hk.library_inv (by nofun)
    cases hp : (S.scene s₃).library.perform (S.clock s₃)
      (.knownTracks (.integer u) (items.map fun i => .text i.track.id))
    case mk reply l =>
      rw [hp] at ho hs₄
      cases reply <;> cases ho
      have ⟨hst, hl, hkn⟩ := Library.Store.perform_knownTracks_inv (by simpa using he) hp
      have hs₄ : S.scene s₄ = S.scene s₂ := by rw [hs₄, hl, ← hs₃]
      rw [← hs₄] at hh₁ hf₂ hn₂
      have ⟨hn₅, hnew⟩ := addTracks_inv hn₂ hf₂.session hadd
      have hold : Holds u (fun t => ∀ i ∈ items, i.track.id ∈ known → Stores t u i) (S.scene s₄) := by
        have h : ∀ i ∈ items, i.track.id ∈ known → Stores (S.scene s₄).library.tables u i :=
          fun i _ hi => (Tables.mem_knownTracks.mp (by rw [hs₄, ← hs₃]; exact hkn ▸ hi)).left
        exact ⟨hf₂.session, h, hn₂ ▸ h⟩
      have hgrow' : Growing fun t => ∀ i ∈ items, i.track.id ∈ known → Stores t u i :=
        fun _ _ hg h i hi hk => hg.tracks (h i hi hk)
      have hold := Holds.addTracks hgrow' _ _ _ _ hadd hold
      have hh := Holds.addTracks hgrow _ _ _ _ hadd hh₁
      have hf := Holds.addTracks growing_found _ _ _ _ hadd hf₂
      have hc : Complete u lookup items (S.scene s').library.tables := by
        refine ⟨hh.tables, hf.tables, fun i hi => ?_⟩
        rcases mem_newItems known hi with hk | hk
        case inl => exact hold.tables i hi hk
        case inr =>
          have ⟨j, hj, he⟩ := List.mem_map.mp hk
          have := hnew j ((oldestFirst_perm _).mem_iff.mpr hj)
          rwa [Stores, he] at this
      exact ⟨⟨hf.session, hc, hn₅ ▸ hc⟩, fun _ => ⟨hw, Library.accepts_integer.mp hst⟩⟩

-- After a pull its first page was within reach, and nothing of that is left to be stored.
theorem pull_inv {pages : Nat} {total : Summary} (hg : G s)
    (hu : ∃ x, (S.scene s).session = some x ∧ x.userId = u)
    (h : S.Runs (pull (pages + 1) workers) s es (.ok total) s') :
    reach 0 5 ∧ Holds u (Complete u lookup (favorites.take 5)) (S.scene s') ∧
      (favorites.take 5 ≠ [] → 1 ≤ workers ∧ Datum.IsStorable u) := by
  rw [pull_eq, pullFrom_succ] at h
  have ⟨_, s₄, _, _, _, h, hfin⟩ := h.bind_ok_inv
  have ⟨r, s₃, _, _, _, hturn, hrest⟩ := h.bind_ok_inv
  have ⟨page, s₁, _, _, _, hpage, h⟩ := hturn.bind_ok_inv
  have ⟨_, s₂, _, _, _, hadd, hlog⟩ := h.bind_ok_inv
  have ⟨hr, hi⟩ := hs.savedTracks_inv hg hpage
  have hu : Holds u (fun _ => True) (S.scene s) := ⟨hu, trivial, trivial⟩
  have hu := Holds.savedTracks (fun _ _ _ h => h) _ _ _ _ hpage hu
  have ⟨hh, hw⟩ := hs.addPage_inv (hpage.good hs.keeps hg) hu.session hadd
  rw [hi] at hh hw
  -- What comes after the first page takes nothing away.
  have hh := Preserves.bind .log (fun _ => .done) _ _ _ _ hlog hh
  have hh : Holds u (Complete u lookup (favorites.take 5)) (S.scene s₄) := by
    split at hrest
    case isTrue  => exact Holds.pullFrom growing_complete _ _ _ _ hrest hh
    case isFalse => exact hrest.done_inv.right.right ▸ hh
  exact ⟨hr, Holds.finish _ _ _ _ hfin hh, hw⟩

end Shows

end Favorites

end LabelPlaylists
