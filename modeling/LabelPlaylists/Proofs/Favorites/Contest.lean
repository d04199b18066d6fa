import LabelPlaylists.Proofs.Favorites.Recovery
import LabelPlaylists.Proofs.Favorites.SideBySide
import LabelPlaylists.Proofs.Favorites.Stored
import LabelPlaylists.Proofs.Favorites.Together

namespace LabelPlaylists.Favorites

open Library (Tables)
open Spotify (SavedTrack)

variable {ι : Type} {O : Outside} {i j : ι} {w w' w'' : Shared ι}
variable {u : Int} {favorites items : List SavedTrack} {t : Tables} {n m : Nat} {x : String}

-- How far a pull has come among others: what it has passed is stored, what it has asked to be added
-- has been added, and of the pages looked up so far those that had been new have been found to be new
-- by some pull. It goes on behind every page of the given kind, which are those it has found to be new itself.
structure Stage (u : Int) (favorites : List SavedTrack) (t : Tables) (i : ι) (D : SavedTrack → Prop)
    (m : Nat) (K : Nat → Prop) (w : Shared ι) : Prop where
  stored : ∀ f, D f → Stores w.library.tables u f
  found  : ∀ k < m, EntirelyNew t u favorites k → ∃ j, FindsNew u favorites k (w.past j)
  finds  : ∀ k, FindsNew u favorites k (w.past i) → K k
  adds   : ∀ x, AsksFor u x (w.past i) → Adds u x (w.past i)

variable {D D' : SavedTrack → Prop} {K K' : Nat → Prop}

theorem AsksFor.of_calm {es es' : List Exchange} (h : AsksFor u x es')
    (hs : ∀ e ∈ es', e ∈ es ∨ e.request.IsCalm) : AsksFor u x es := by
  have ⟨c, hc, reply, he⟩ := h
  exact ⟨c, hc, reply, (hs _ he).resolve_right fun hr => hr.isPlain.right hc.isAddTrack⟩

theorem Adds.mono {es es' : List Exchange} (h : Adds u x es) (hs : es ⊆ es') : Adds u x es' :=
  have ⟨c, hc, a, he⟩ := h
  ⟨c, hc, a, hs he⟩

theorem FindsNew.of_calm {es es' : List Exchange} (h : FindsNew u favorites n es')
    (hs : ∀ e ∈ es', e ∈ es ∨ e.request.IsCalm) : FindsNew u favorites n es :=
  have ⟨hl, known, he, hk⟩ := h
  ⟨hl, known, (hs _ he).resolve_right id, hk⟩

theorem Later.stores {f : SavedTrack} (h : Later u i w w') (hs : Stores w.library.tables u f) :
    Stores w'.library.tables u f :=
  h.grows.tracks hs

theorem Stage.mono (h : Stage u favorites t i D m K w) (hd : ∀ f, D' f → D f)
    (hk : ∀ k, (page favorites k).length = limit k → K k → K' k) : Stage u favorites t i D' m K' w :=
  ⟨fun f hf => h.stored f (hd f hf), h.found, fun k hf => hk k hf.left (h.finds k hf), h.adds⟩

theorem Stage.later (h : Stage u favorites t i D m K w) (hl : Later u i w w') :
    Stage u favorites t i D m K w' where
  stored f hf   := hl.stores (h.stored f hf)
  found k hk hn := have ⟨j, hj⟩ := h.found k hk hn; ⟨j, hj.mono (hl.past j)⟩
  finds k hk    := h.finds k (hk.of_calm hl.own)
  adds x hx     := (h.adds x (hx.of_calm hl.own)).mono (hl.past i)

-- A pull has come to its end with the given page as the last one.
abbrev Stops (u : Int) (favorites : List SavedTrack) (t : Tables) (i : ι) (m : Nat) : Shared ι → Prop :=
  Stage u favorites t i (· ∈ favorites.take (offset (m + 1))) (m + 1) (· < m)

-- A track that is there by now, though it had been missing, has been asked for by another pull.
def Contested (u : Int) (x : String) (i : ι) (w : Shared ι) : Prop := ∃ j ≠ i, AsksFor u x (w.past j)

theorem Contested.later (h : Contested u x i w) (hl : Later u i w w') : Contested u x i w' :=
  have ⟨j, hj, hx⟩ := h
  ⟨j, hj, hx.mono (hl.past j)⟩

-- A pull fails only if another one asks for the same favorite.
def Loses (u : Int) (favorites : List SavedTrack) (i : ι) (e : Failure) (w : Shared ι) : Prop :=
  e = .library (.fault (.notUnique "tracks.user_id, tracks.spotify_id")) ∧
  ∃ f ∈ favorites, AsksFor u f.track.id (w.past i) ∧ Contested u f.track.id i w

-- Favorites that are about to be added: their albums and artists are there, and if one of them is there
-- itself, then it is contested.
structure Pending (u : Int) (items : List SavedTrack) (i : ι) (w : Shared ι) : Prop where
  distinct  : (items.map (·.track.id)).Nodup
  albums    : ∀ f ∈ items, some f.track.album.id ∈ w.library.tables.albums.map (·.id)
  artists   : ∀ f ∈ items, ∀ a ∈ f.track.artists.map (·.id), some a ∈ w.library.tables.artists.map (·.id)
  contested : ∀ f ∈ items, Stores w.library.tables u f → Contested u f.track.id i w

theorem Pending.later (h : Pending u items i w) (hl : Later u i w w') : Pending u items i w' where
  distinct          := h.distinct
  albums f hf       := hl.grows.albums (h.albums f hf)
  artists f hf a ha := hl.grows.artists (h.artists f hf a ha)
  contested f hf hs := (hl.gained _ hs).elim (fun hs => (h.contested f hf hs).later hl) id

-- Favorites of a page are about to be added as soon as its albums and artists have been stored.
theorem Pending.of_mem {batch : List SavedTrack} (hdistinct : (items.map (·.track.id)).Nodup)
    (hg : w.library.tables.Grows w'.library.tables)
    (halbums : ∀ f ∈ batch, some f.track.album.id ∈ w.library.tables.albums.map (·.id))
    (hartists : ∀ a ∈ artistIdsOf batch, some a ∈ w.library.tables.artists.map (·.id))
    (hm : ∀ f ∈ items, f ∈ batch)
    (hc : ∀ f ∈ items, Stores w'.library.tables u f → Contested u f.track.id i w') : Pending u items i w' where
  distinct          := hdistinct
  albums f hf       := hg.albums (halbums f (hm f hf))
  artists f hf a ha := hg.artists (hartists a (mem_artistIdsOf.mpr ⟨f, hm f hf, ha⟩))
  contested         := hc

theorem le_offset (n : Nat) : n ≤ offset n := by
  induction n
  case zero      => exact Nat.zero_le _
  case succ n hi => exact Nat.add_le_add hi limit_pos

-- A page without favorites is passed, as it is not entirely new.
theorem Stage.skip (hs : Stage u favorites t i (· ∈ favorites.take (offset n)) n K w) (he : page favorites n = []) :
    Stage u favorites t i (· ∈ favorites.take (offset (n + 1))) (n + 1) K w where
  stored          := by rw [take_offset_succ, he, List.append_nil]; exact hs.stored
  found k hk hnew := by
    refine hs.found k (Nat.lt_of_le_of_ne (Nat.le_of_lt_succ hk) ?_) hnew
    rintro rfl
    exact limit_pos.ne (by rw [← hnew.left, he]; rfl)
  finds           := hs.finds
  adds            := hs.adds

theorem knownTracks_inj {d d' : Datum} {ids ids' : List Datum} {known known' : List String}
    (h : (⟨.library (.knownTracks d ids), .ok known⟩ : Exchange)
      = ⟨.library (.knownTracks d' ids'), .ok known'⟩) :
    ids = ids' ∧ known = known' := by
  have ⟨hr, hx⟩ := Exchange.mk.inj h
  cases hr
  cases eq_of_heq hx
  exact ⟨rfl, rfl⟩

theorem page_unique (hn : favorites.Nodup) {f : SavedTrack} (hf : f ∈ page favorites n)
    (hf' : f ∈ page favorites m) : n = m := by
  -- Otherwise one of the pages lies in front of the other one.
  suffices h : ∀ {n m}, n < m → f ∈ page favorites n → f ∉ page favorites m by
    rcases Nat.lt_trichotomy n m with hlt | he | hgt
    · exact absurd hf' (h hlt hf)
    · exact he
    · exact absurd hf (h hgt hf')
  intro n m hlt hf hf'
  have hle := List.take_subset_take_left favorites (offset_mono hlt)
  have hfront : f ∈ favorites.take (offset m) :=
    hle (by rw [take_offset_succ]; exact List.mem_append_right _ hf)
  rw [← List.take_append_drop (offset m) favorites] at hn
  exact List.disjoint_of_nodup_append hn hfront (List.take_subset _ _ hf')

-- Different pages have different tracks.
theorem page_unique_of_ids (hn : (favorites.map (·.track.id)).Nodup) (hl : (page favorites n).length = limit n)
    (h : (page favorites n).map (fun f => Datum.text f.track.id)
      = (page favorites m).map fun f => .text f.track.id) : n = m := by
  obtain ⟨f, hf⟩ := List.exists_mem_of_length_pos (hl ▸ limit_pos)
  obtain ⟨g, hg, he⟩ := List.mem_map.mp (h ▸ List.mem_map_of_mem hf)
  have he : g = f :=
    List.inj_on_of_nodup_map hn (page_sublist.subset hg) (page_sublist.subset hf) (Datum.text.inj he)
  exact page_unique hn.of_map hf (he ▸ hg)

-- There are fewer favorites left to be stored.
theorem length_fresh_lt {t t' : Tables} (hs : ∀ f, Stores t u f → Stores t' u f) {f : SavedTrack}
    (hf : f ∈ items) (hn : ¬Stores t u f) (hn' : Stores t' u f) :
    (fresh t' u items).length < (fresh t u items).length := by
  have he : fresh t' u items = (fresh t u items).filter (¬Stores t' u ·) := by
    rw [fresh, fresh, List.filter_filter]
    refine List.filter_congr fun g _ => ?_
    by_cases hg : Stores t' u g
    case pos => simp [hg]
    case neg => simp [hg, mt (hs g) hg]
  rw [he, List.length_filter_lt_length_iff_exists]
  exact ⟨f, mem_fresh.mpr ⟨hf, hn⟩, by simpa using hn'⟩

variable [DecidableEq ι]

-- A page is looked up. Some of it is there only if it had been found to be new before, or if it has not been
-- entirely new from the beginning.
theorem Stage.looksUp {known : List String} (hs : Stage u favorites t i D n (· < n) w)
    (hv : Valid u favorites t w) (hdist : (favorites.map (·.track.id)).Nodup)
    (ha : w.Answers O i (.library (.knownTracks (.integer u)
      ((page favorites n).map fun f => .text f.track.id))) (.ok known) w')
    (hl : w'.library = w.library)
    (hknown : ∀ f ∈ page favorites n, f.track.id ∈ known ↔ Stores w.library.tables u f) :
    Stage u favorites t i (fun f => D f ∨ f ∈ page favorites n ∧ f.track.id ∈ known) (n + 1)
      (fun k => k < n ∨ k = n ∧ ∀ f ∈ page favorites n, f.track.id ∉ known) w' := by
  constructor
  case stored =>
    rw [hl]
    exact fun f hf => hf.elim (hs.stored f) fun ⟨hf, hk⟩ => (hknown f hf).mp hk
  case found  =>
    intro k hk hnew
    rcases Nat.lt_succ_iff_lt_or_eq.mp hk with hk | rfl
    case inl => have ⟨j, hj⟩ := hs.found k hk hnew; exact ⟨j, hj.mono (ha.past_subset j)⟩
    by_cases hany : ∃ f ∈ page favorites k, Stores w.library.tables u f
    case pos =>
      obtain ⟨f, hf, hstored⟩ := hany
      have ⟨j, hj⟩ := hv.found k hnew f hf hstored
      exact ⟨j, hj.mono (ha.past_subset j)⟩
    case neg =>
      exact ⟨i, hnew.left, known, ha.mem_past_iff.mpr (.inr rfl),
        fun f hf hk => hany ⟨f, hf, (hknown f hf).mp hk⟩⟩
  case finds  =>
    intro k ⟨hlen, known', he, hk⟩
    rcases ha.mem_past_iff.mp he with he | he
    case inl => exact .inl (hs.finds k ⟨hlen, known', he, hk⟩)
    case inr =>
      have ⟨hids, hkn⟩ := knownTracks_inj he
      obtain rfl := page_unique_of_ids hdist hlen hids
      exact .inr ⟨rfl, hkn ▸ hk⟩
  case adds   =>
    intro x ⟨c, hc, reply, he⟩
    rcases ha.mem_past_iff.mp he with he | he
    case inl => exact (hs.adds x ⟨c, hc, reply, he⟩).mono (ha.past_subset i)
    case inr => cases he; exact hc.elim

section

variable {E : Failure → Shared ι → Prop}
variable (hroom : t.lastTrack + favorites.length < 2 ^ 63) (hd : Delivering O u favorites)
variable (hu : Datum.IsStorable u)

include hroom in
theorem copes_addAlbums (h : Later u i w w') :
    (sharing ι O u favorites t).Copes i (Program.library (.addAlbums ((albumsOf items).map albumValues))) w'
      (fun _ w'' => Later u i w w'' ∧
        ∀ f ∈ items, some f.track.album.id ∈ w''.library.tables.albums.map (·.id)) E := by
  refine copes_calm hroom ⟨?_, id⟩ h fun {w₁ _ _} _ _ ha h => ?_
  case refine_1 => simp [Library.Command.IsCareful, albumValues, Library.Store.albumValues]
  obtain ⟨m, hm, hp⟩ := ha.library_inv
  obtain ⟨_, l, hp', ht⟩ := w₁.library.perform_addAlbums m ((albumsOf items).map albumValues)
    (by simp [albumValues, Library.Store.albumValues])
  obtain ⟨hr, hl⟩ := Prod.mk.inj (hp.symm.trans hp')
  cases hr
  obtain ⟨_, hall⟩ := Gains.addAlbums (u := u) (albumsOf items) (t := w₁.library.tables)
  rw [← ht, ← hl] at hall
  refine fun w'' hm _ => ⟨h.trans hm, fun f hf => hm.grows.albums ?_⟩
  obtain ⟨a, ha, he⟩ := List.mem_map.mp (mem_ids_albumsOf.mpr (List.mem_map_of_mem hf))
  exact he ▸ hall a ha

include hroom hd hu in
theorem copes_addMissingArtists {ids : List String} (h : Later u i w w') :
    (sharing ι O u favorites t).Copes i (addMissingArtists ids) w'
      (fun _ w'' => Later u i w w'' ∧ ∀ a ∈ ids, some a ∈ w''.library.tables.artists.map (·.id)) E := by
  refine Terms.Copes.bind (P := fun known w'' => Later u i w w'' ∧
    ∀ a ∈ ids, a ∈ known → some a ∈ w''.library.tables.artists.map (·.id)) ?_ ?_
  case refine_1 =>
    refine copes_calm hroom ⟨trivial, id⟩ h fun {w₁ _ _} _ _ ha h => ?_
    obtain ⟨m, hm, hp⟩ := ha.library_inv
    have hp' := w₁.library.perform_knownArtists m (ids.map .text) (by simp)
    obtain ⟨hr, hl⟩ := Prod.mk.inj (hp.symm.trans hp')
    cases hr
    refine fun w'' hm _ => ⟨h.trans hm, fun a ha hk => hm.grows.artists ?_⟩
    rw [hl]
    exact (Tables.mem_knownArtists ⟨.text a, List.mem_map_of_mem ha, rfl⟩).mp hk
  intro known w₁ _ ⟨h₁, hk⟩
  dsimp only
  split
  case isTrue he =>
    refine fun w'' hm _ => ⟨h₁.trans hm, fun a ha => hm.grows.artists (hk a ha ?_)⟩
    simp only [List.isEmpty_iff, List.filter_eq_nil_iff] at he
    simpa using he a ha
  case isFalse =>
    refine (copes_artists hroom hd hu .refl).bind fun {found w₂} _ ⟨hf, h₂⟩ => ?_
    refine copes_calm hroom ⟨?_, id⟩ h₂ fun {w₃ _ _} _ _ ha h₃ => ?_
    case refine_1 => simp [Library.Command.IsCareful, artistValues, Library.Store.artistValues]
    obtain ⟨m, hm, hp⟩ := ha.library_inv
    obtain ⟨_, l, hp', ht⟩ := w₃.library.perform_addArtists m (found.map artistValues)
      (by simp [artistValues, Library.Store.artistValues])
    obtain ⟨hr, hl⟩ := Prod.mk.inj (hp.symm.trans hp')
    cases hr
    obtain ⟨_, hall⟩ := Gains.addArtists (u := u) found (t := w₃.library.tables)
    rw [← ht, ← hl] at hall
    refine fun w'' hm _ => ⟨h₁.trans (h₃.trans hm), fun a ha => hm.grows.artists ?_⟩
    -- An artist has been known before or has been looked up.
    by_cases hk' : a ∈ known
    case pos => exact h₃.grows.artists (hk a ha hk')
    case neg =>
      obtain ⟨b, hb, he⟩ := List.mem_map.mp (hf (List.mem_filter.mpr ⟨ha, by simpa using hk'⟩))
      exact he ▸ hall b hb

variable (hdist : (favorites.map (·.track.id)).Nodup)

include hroom hu hdist in
theorem copes_knownTracks (hs : Stage u favorites t i D n (· < n) w) :
    (sharing ι O u favorites t).Copes i
      (Program.library (.knownTracks (.integer u) ((page favorites n).map fun f => .text f.track.id))) w
      (fun known w'' =>
        Stage u favorites t i (fun f => D f ∨ f ∈ page favorites n ∧ f.track.id ∈ known) (n + 1)
          (fun k => k < n ∨ k = n ∧ ∀ f ∈ page favorites n, f.track.id ∉ known) w'' ∧
        w.library.tables.Grows w''.library.tables ∧
        ∀ f ∈ page favorites n, f.track.id ∉ known → Stores w''.library.tables u f →
          Contested u f.track.id i w'') E := by
  intro w₁ reply w₂ hm hv ha
  have hplain : Request.IsPlain (.library (.knownTracks (.integer u)
      ((page favorites n).map fun f => .text f.track.id))) := ⟨trivial, id⟩
  refine ⟨hv.answers hroom hplain ha, ?_⟩
  have ⟨m, _, hp⟩ := ha.library_inv
  have hp' := w₁.library.perform_knownTracks m ((page favorites n).map fun f => .text f.track.id)
    (Library.accepts_integer.mpr hu) (by simp)
  have ⟨hr, hl⟩ := Prod.mk.inj (hp.symm.trans hp')
  have hknown : ∀ f ∈ page favorites n,
      f.track.id ∈ w₁.library.tables.knownTracks (.integer u) ((page favorites n).map fun f => .text f.track.id) ↔
        Stores w₁.library.tables u f := fun f hf => by
    rw [Tables.mem_knownTracks]
    exact and_iff_left ⟨_, List.mem_map_of_mem hf, rfl⟩
  generalize w₁.library.tables.knownTracks (.integer u) ((page favorites n).map fun f => .text f.track.id) = known
    at hr hknown
  cases hr
  have hs := (hs.later hm).looksUp hv hdist ha hl hknown
  refine fun w'' hm' _ => ⟨hs.later hm', hm.grows.trans (hl ▸ hm'.grows), fun f hf hk hs => ?_⟩
  refine (hm'.gained _ hs).elim (fun hs => absurd ?_ hk) id
  rw [hl] at hs
  exact (hknown f hf).mpr hs

end

-- A favorite of a page that has been looked up is added.

section

variable {c : Library.Command} {a : c.Reply} {f : SavedTrack}
variable (h : w.Answers O i (.library c) (.ok a) w') (hc : c.Adds u f.track.id)
include h hc

theorem Adds.of_answers (hx : Adds u x (w'.past j)) : Adds u x (w.past j) ∨ j = i ∧ x = f.track.id := by
  have ⟨c', hc', b, he⟩ := hx
  by_cases hj : j = i
  case neg => exact .inl ⟨c', hc', b, h.past_of_ne hj ▸ he⟩
  case pos =>
    subst hj
    rcases h.mem_past_iff.mp he with he | he
    case inl => exact .inl ⟨c', hc', b, he⟩
    case inr => cases he; exact .inr ⟨rfl, hc'.unique hc⟩

theorem Stores.of_answers {g : SavedTrack} (hs : w.library.saved = w.library.tables)
    (hg : Stores w'.library.tables u g) : Stores w.library.tables u g ∨ g.track.id = f.track.id := by
  refine (Later.gained_of_answers hs h hg).imp_right fun ⟨c', hc', he⟩ => ?_
  cases he
  exact hc'.unique hc

theorem Stage.answers (hs : w.library.saved = w.library.tables) (hst : Stage u favorites t i D m K w) :
    Stage u favorites t i D m K w' where
  stored f hf   := (Later.grows_of_answers hs h).tracks (hst.stored f hf)
  found k hk hn := have ⟨j, hj⟩ := hst.found k hk hn; ⟨j, hj.mono (h.past_subset j)⟩
  finds k hk    := by
    have ⟨hl, known, he, hn⟩ := hk
    refine hst.finds k ⟨hl, known, (h.mem_past_iff.mp he).resolve_right fun he => ?_, hn⟩
    cases he
    exact hc
  adds x hx     := by
    have ⟨c', hc', reply, he⟩ := hx
    rcases h.mem_past_iff.mp he with he | he
    case inl => exact (hst.adds x ⟨c', hc', reply, he⟩).mono (h.past_subset i)
    case inr =>
      cases he
      exact ⟨c, hc', a, h.mem_past_iff.mpr (.inr rfl)⟩

theorem Pending.answers {rest : List SavedTrack} (hs : w.library.saved = w.library.tables)
    (hp : Pending u (f :: rest) i w) : Pending u rest i w' where
  distinct           := (List.nodup_cons.mp hp.distinct).right
  albums g hg        := (Later.grows_of_answers hs h).albums (hp.albums g (List.mem_cons_of_mem _ hg))
  artists g hg a ha  := (Later.grows_of_answers hs h).artists (hp.artists g (List.mem_cons_of_mem _ hg) a ha)
  contested g hg hst := by
    rcases Stores.of_answers h hc hs hst with hst | he
    case inl =>
      have ⟨j, hj, hx⟩ := hp.contested g (List.mem_cons_of_mem _ hg) hst
      exact ⟨j, hj, hx.mono (h.past_subset j)⟩
    case inr =>
      exact absurd (List.mem_map.mpr ⟨g, hg, he⟩) (List.nodup_cons.mp hp.distinct).left

theorem Valid.adds (hv : Valid u favorites t w) (hdist : (favorites.map (·.track.id)).Nodup)
    (hf : f ∈ favorites) (hn : ¬Stores w.library.tables u f) (hst : Stores w'.library.tables u f)
    (hl : w'.library.tables.lastTrack = w.library.tables.lastTrack + 1)
    (hsv : w'.library.saved = w'.library.tables)
    (hfound : ∀ k, EntirelyNew t u favorites k → f ∈ page favorites k →
      ∃ j, FindsNew u favorites k (w.past j)) : Valid u favorites t w' := by
  have hg := Later.grows_of_answers hv.saved h
  constructor
  case saved => exact hsv
  case grows => exact hv.grows.trans hg
  case sound =>
    have ⟨m, _, hp⟩ := h.library_inv
    have hs : w.library.Sound := ⟨hv.sound, hv.saved ▸ hv.sound⟩
    have hs : (w.library.perform m c).2.Sound := hs.perform
    rw [hp] at hs
    exact hs.tables
  case user  => exact hg.user hv.user
  case room  =>
    have := hv.room
    have := length_fresh_lt (fun _ hs => hg.tracks hs) hf hn hst
    omega
  case found =>
    intro k hk g hgk hs
    rcases Stores.of_answers h hc hv.saved hs with hs | he
    case inl => have ⟨j, hj⟩ := hv.found k hk g hgk hs; exact ⟨j, hj.mono (h.past_subset j)⟩
    case inr =>
      have he : g = f := List.inj_on_of_nodup_map hdist (page_sublist.subset hgk) hf he
      have ⟨j, hj⟩ := hfound k hk (he ▸ hgk)
      exact ⟨j, hj.mono (h.past_subset j)⟩
  case added =>
    intro j x hx
    rcases hx.of_answers h hc with hx | ⟨_, rfl⟩
    case inl => exact hg.tracks (hv.added j x hx)
    case inr => exact hst
  case once  =>
    intro j k x hj hk
    rcases hj.of_answers h hc with hj | ⟨rfl, hx⟩ <;> rcases hk.of_answers h hc with hk | ⟨rfl, hx'⟩
    · exact hv.once j k x hj hk
    · cases hx'; exact absurd (hv.added j _ hj) hn
    · cases hx; exact absurd (hv.added k _ hk) hn
    · rfl

end

-- An operation that is refused and leaves no trace.
theorem Valid.fails {c : Library.Command} {e : Library.Failure} (hv : Valid u favorites t w)
    (h : w.Answers O i (.library c) (.error e) w') (hl : w'.library = w.library) : Valid u favorites t w' := by
  refine hv.of_same (hl ▸ .refl) (hl ▸ rfl) (hl ▸ rfl) (hl ▸ hv.sound) (hl ▸ hv.saved) h.past_subset
    fun j x ⟨c', hc', a, he⟩ => ⟨c', hc', a, ?_⟩
  by_cases hj : j = i
  case neg => exact h.past_of_ne hj ▸ he
  case pos =>
    subst hj
    refine (h.mem_past_iff.mp he).resolve_right fun he => ?_
    cases he

section

variable (hroom : t.lastTrack + favorites.length < 2 ^ 63) (hd : Delivering O u favorites)
variable (hu : Datum.IsStorable u) (hdist : (favorites.map (·.track.id)).Nodup)
include hroom hu hdist

-- A favorite that is about to be added is added, unless it has been lost to another pull.
theorem copes_addTrack {f : SavedTrack} {rest : List SavedTrack} (hf : f ∈ page favorites n)
    (hs : Stage u favorites t i D (n + 1) K w) (hp : Pending u (f :: rest) i w) :
    (sharing ι O u favorites t).Copes i
      (Program.library <| .addTrack (.integer u) (trackValues f)
        (f.track.artists.map fun a => .text a.id)) w
      (fun _ w'' => Stage u favorites t i (fun g => D g ∨ g = f) (n + 1) K w'' ∧ Pending u rest i w'')
      (Loses u favorites i) := by
  intro w₁ reply w₂ hm hv ha
  have hs := hs.later hm
  have hp := hp.later hm
  have hmem : f ∈ favorites := page_sublist.subset hf
  have ⟨m, _, hperf⟩ := ha.library_inv
  have hadds : (Library.Command.addTrack (.integer u) (trackValues f)
      (f.track.artists.map fun a => .text a.id)).Adds u f.track.id := ⟨rfl, rfl⟩
  by_cases hst : Stores w₁.library.tables u f
  case pos =>
    have hperf' := Library.Store.perform_addTrack_again m f.track.name f.track.album.id f.addedAt
      f.track.explicit (f.track.artists.map fun a => .text a.id) hv.saved hu hst
    have ⟨hr, hl⟩ := Prod.mk.inj (hperf.symm.trans hperf')
    subst hr
    have ⟨j, hj, hx⟩ := hp.contested f List.mem_cons_self hst
    refine ⟨hv.fails ha hl, fun w'' hm _ => ⟨rfl, f, hmem, ?_, j, hj, ?_⟩⟩
    case refine_1 => exact ⟨_, hadds, _, hm.past i (ha.mem_past_iff.mpr (.inr rfl))⟩
    case refine_2 => exact hx.mono (List.Subset.trans (ha.past_subset j) (hm.past j))
  case neg =>
    have hlast : Datum.IsStorable (w₁.library.tables.lastTrack + 1) := by
      have := hv.room
      have := hv.sound.counters
      have : 0 < (fresh w₁.library.tables u favorites).length :=
        List.length_pos_of_mem (mem_fresh.mpr ⟨hmem, hst⟩)
      unfold Datum.IsStorable
      omega
    have ⟨l, hperf', ht, _⟩ := Library.Store.perform_addTrack m f.track.name f.addedAt f.track.explicit
      hu hlast hv.user (hp.albums f List.mem_cons_self) hst (hp.artists f List.mem_cons_self)
    rw [List.map_map] at hperf'
    have ⟨hr, hl⟩ := Prod.mk.inj (hperf.symm.trans hperf')
    subst hr
    have hst' : Stores w₂.library.tables u f := by
      rw [hl, Stores, ht]
      simp
    have hsv : w₂.library.saved = w₂.library.tables :=
      Library.Store.perform_writes (c := .addTrack ..) trivial hperf
    have hs₂ := hs.answers ha hadds hv.saved
    refine ⟨?_, fun w'' hm _ => ⟨Stage.later ?_ hm, (hp.answers ha hadds hv.saved).later hm⟩⟩
    case refine_1 =>
      refine hv.adds ha hadds hdist hmem hst hst' (by rw [hl, ht]) hsv fun k hk hfk => ?_
      exact hs.found k (page_unique hdist.of_map hfk hf ▸ Nat.lt_succ_self n) hk
    case refine_2 =>
      exact ⟨fun g hg => hg.elim (hs₂.stored g) (· ▸ hst'), hs₂.found, hs₂.finds, hs₂.adds⟩

-- The favorites are added one after the other, until one of them has been lost.
theorem copes_addTracks (hm : ∀ f ∈ items, f ∈ page favorites n)
    (hs : Stage u favorites t i D (n + 1) K w) (hp : Pending u items i w) :
    (sharing ι O u favorites t).Copes i (addTracks u items) w
      (fun _ => Stage u favorites t i (fun g => D g ∨ g ∈ items) (n + 1) K) (Loses u favorites i) := by
  induction items generalizing w D
  case nil => exact fun w'' hm _ => (hs.later hm).mono (fun g hg => hg.resolve_right nofun) fun _ _ => id
  case cons f rest hi =>
    have ⟨hf, hm⟩ := List.forall_mem_cons.mp hm
    refine (copes_addTrack hroom hu hdist hf hs hp).bind fun _ ⟨hs, hp⟩ => ?_
    refine (copes_log hroom .refl).bind fun _ hl => ?_
    refine (hi hm (hs.later hl) (hp.later hl)).mono (fun hs => hs.mono (fun g hg => ?_) fun _ _ => id) id
    simpa only [List.mem_cons, or_assoc] using hg

include hd

omit hdist in
-- Whichever way the albums and the artists of a page are stored, they are all there afterwards.
theorem copes_storing {side : Storing} (hside : side.IsParallel) :
    (sharing ι O u favorites t).Copes i (side items) w
      (fun o w'' =>
        ((∃ k, o.1 = .ok k) ∧ Later u i w w'' ∧
          ∀ f ∈ items, some f.track.album.id ∈ w''.library.tables.albums.map (·.id)) ∧
        (∃ k, o.2 = .ok k) ∧ Later u i w w'' ∧
          ∀ a ∈ artistIdsOf items, some a ∈ w''.library.tables.artists.map (·.id)) E := by
  refine Terms.Copes.beside (T := sharing ι O u favorites t) (C := Request.IsCalm)
    (P := fun o w'' => (∃ k, o = .ok k) ∧ Later u i w w'' ∧
      ∀ f ∈ items, some f.track.album.id ∈ w''.library.tables.albums.map (·.id))
    (Q := fun o w'' => (∃ k, o = .ok k) ∧ Later u i w w'' ∧
      ∀ a ∈ artistIdsOf items, some a ∈ w''.library.tables.artists.map (·.id))
    (fun hr hv ha => Later.of_calm hr (Valid.saved hv) ha) (hside items) ?_ ?_ ?_ ?_
  case refine_1 => exact (asks_library ⟨isCareful_addAlbums, id⟩).outcome
  case refine_2 =>
    exact (asks_addMissingArtists (fun _ _ => trivial) (Request.covers_aside.mono Request.IsAside.isCalm)
      (fun _ => ⟨trivial, id⟩) fun _ => ⟨isCareful_addArtists, id⟩).outcome
  case refine_3 => exact Terms.Copes.outcome <| (copes_addAlbums hroom .refl).mono (fun h => ⟨⟨_, rfl⟩, h⟩) id
  case refine_4 =>
    exact Terms.Copes.outcome <| (copes_addMissingArtists hroom hd hu .refl).mono (fun h => ⟨⟨_, rfl⟩, h⟩) id

variable {side : Storing} (hside : side.IsParallel) {workers : Int} (hw : 1 ≤ workers)
include hside hw

-- A page is stored, and the number of its favorites that were missing tells whether the pull goes on.
theorem copes_addPageBy {sum : Summary}
    (hs : Stage u favorites t i (· ∈ favorites.take (offset n)) n (· < n) w) :
    (sharing ι O u favorites t).Copes i (addPageBy side workers (page favorites n) sum) w
      (fun r => fun w'' => r.1 ≤ (page favorites n).length ∧
        Stage u favorites t i (· ∈ favorites.take (offset (n + 1))) (n + 1)
          (fun k => k < n ∨ k = n ∧ r.1 = (page favorites n).length) w'')
      (Loses u favorites i) := by
  unfold addPageBy
  split
  case isTrue he =>
    have he : page favorites n = [] := List.isEmpty_iff.mp he
    exact fun w'' hm _ => ⟨Nat.zero_le _, ((hs.later hm).skip he).mono (fun _ => id) fun _ _ => .inl⟩
  case isFalse =>
    rw [if_neg (by omega)]
    have hnodup : ((page favorites n).map (·.track.id)).Nodup := hdist.sublist (page_sublist.map _)
    refine (copes_storing hroom hd hu hside).bind fun {o w₁} _ ⟨⟨ho, h₁, halbums⟩, ho', _, hartists⟩ => ?_
    obtain ⟨albums, artists⟩ := o
    obtain ⟨_, rfl⟩ := ho
    obtain ⟨_, rfl⟩ := ho'
    refine Terms.Copes.bind (P := fun _ => Later u i w₁) (fun _ hm _ => hm) fun _ h₂ => ?_
    refine Terms.Copes.bind (P := fun _ => Later u i w₁) (fun _ hm _ => h₂.trans hm) fun _ h₂ => ?_
    refine (copes_session hroom hd h₂).bind fun {y w₂} _ ⟨hy, h₂⟩ => ?_
    rw [hy]
    have hs := hs.later (h₁.trans h₂)
    refine (copes_knownTracks hroom hu hdist hs).bind fun {known w₃} _ ⟨hs, hg, hc⟩ => ?_
    dsimp only
    rw [newItems_eq_filter hnodup]
    have hperm := oldestFirst_perm ((page favorites n).filter (!known.contains ·.track.id))
    have hmem : ∀ f ∈ oldestFirst ((page favorites n).filter (!known.contains ·.track.id)),
        f ∈ page favorites n ∧ f.track.id ∉ known := fun f hf => by
      simpa using hperm.mem_iff.mp hf
    have hp : Pending u (oldestFirst ((page favorites n).filter (!known.contains ·.track.id))) i w₃ := by
      refine .of_mem ((hperm.map _).nodup_iff.mpr (hnodup.sublist (List.filter_sublist.map _))) (h₂.grows.trans hg)
        halbums hartists (fun f hf => (hmem f hf).left) fun f hf => ?_
      exact hc f (hmem f hf).left (hmem f hf).right
    refine (copes_addTracks hroom hu hdist (fun f hf => (hmem f hf).left) hs hp).bind fun _ hs => ?_
    refine fun w'' hm _ => ⟨List.length_filter_le .., (hs.later hm).mono (fun f hf => ?_) fun k _ hk => ?_⟩
    case refine_1 =>
      rw [take_offset_succ, List.mem_append] at hf
      rcases hf with hf | hf
      case inl => exact .inl (.inl hf)
      by_cases hk : f.track.id ∈ known
      case pos => exact .inl (.inr ⟨hf, hk⟩)
      case neg => exact .inr (hperm.mem_iff.mpr (List.mem_filter.mpr ⟨hf, by simpa using hk⟩))
    case refine_2 =>
      refine hk.imp_right fun ⟨hk, hn⟩ => ⟨hk, ?_⟩
      rw [List.filter_eq_self.mpr fun f hf => by simpa using hn f hf]

theorem copes_turnBy {sum : Summary}
    (hs : Stage u favorites t i (· ∈ favorites.take (offset n)) n (· < n) w) :
    (sharing ι O u favorites t).Copes i (turnBy side workers (offset n) (limit n) sum) w
      (fun r => fun w'' => r.1 ≤ (page favorites n).length ∧
        Stage u favorites t i (· ∈ favorites.take (offset (n + 1))) (n + 1)
          (fun k => k < n ∨ k = n ∧ r.1 = (page favorites n).length) w'')
      (Loses u favorites i) := by
  refine (copes_savedTracks hroom hd hu .refl).bind fun {found _} _ ⟨hf, hl⟩ => ?_
  rw [hf]
  refine (copes_addPageBy hroom hd hu hdist hside hw (hs.later hl)).bind fun {r _} _ ⟨hr, hs⟩ => ?_
  exact (copes_log hroom .refl).bind fun _ hl _ hm _ => ⟨hr, hs.later (hl.trans hm)⟩

theorem copes_pullFromBy {pages : Nat} {sum : Summary}
    (hn : offset n ≤ favorites.length) (hp : favorites.length < n + pages)
    (hs : Stage u favorites t i (· ∈ favorites.take (offset n)) n (· < n) w) :
    (sharing ι O u favorites t).Copes i (pullFromBy side workers pages (offset n) (limit n) sum) w
      (fun _ w'' => ∃ m, Stops u favorites t i m w'') (Loses u favorites i) := by
  induction pages generalizing n sum w
  case zero =>
    have := le_offset n
    omega
  case succ pages hi =>
    refine (copes_turnBy hroom hd hu hdist hside hw hs).bind fun {r _} _ ⟨hr, hs⟩ => ?_
    have hle : (page favorites n).length ≤ limit n := List.length_take_le ..
    dsimp only
    split
    case isTrue hc =>
      refine hi (n := n + 1) ?_ (by omega) (hs.mono (fun _ => id) fun k _ hk => ?_)
      case refine_1 =>
        have := limit_pos (n := n)
        simp only [page, List.length_take, List.length_drop] at hr
        simp only [offset]
        omega
      case refine_2 => omega
    case isFalse hc =>
      refine fun w'' hm _ => ⟨n, (hs.later hm).mono (fun _ => id) fun k hk hk' => hk'.resolve_right ?_⟩
      rintro ⟨rfl, he⟩
      exact hc (he.trans hk)

-- A pull comes to its end behind a page that it has not found to be new, or it loses a favorite.
theorem copes_pullBy {pages : Nat} (hp : favorites.length < pages) (hpast : w.past i = []) :
    (sharing ι O u favorites t).Copes i (pullBy side pages workers) w
      (fun _ w'' => ∃ m, Stops u favorites t i m w'') (Loses u favorites i) := by
  have hs : Stage u favorites t i (· ∈ favorites.take (offset 0)) 0 (· < 0) w := by
    constructor
    case stored => exact nofun
    case found  => exact nofun
    case finds  => exact fun k ⟨_, _, he, _⟩ => by rw [hpast] at he; cases he
    case adds   => exact fun x ⟨_, _, _, he⟩ => by rw [hpast] at he; cases he
  refine (copes_pullFromBy hroom hd hu hdist hside hw (Nat.zero_le _) (by omega) hs).bind fun _ ⟨m, hs⟩ => ?_
  exact (copes_log hroom .refl).bind fun _ hl _ hm _ => ⟨m, hs.later (hl.trans hm)⟩

end

end LabelPlaylists.Favorites
