import LabelPlaylists.Proofs.Favorites.Advance

namespace LabelPlaylists.Favorites

open Library (Tables)
open Spotify (SavedTrack)

variable {σ : Type} {S : Surroundings σ} {G : σ → Prop} {u : Int} {n : Nat} {s s' : σ} {E : σ → Prop}
variable {favorites items : List SavedTrack} {t t' : Tables}

-- A user has a track under a Spotify id.
def Stores (t : Tables) (u : Int) (i : SavedTrack) : Prop :=
  (u, i.track.id) ∈ t.tracks.map fun r => (r.userId, r.spotifyId)

instance : Decidable (Stores t u i) := by unfold Stores; infer_instance

-- Favorites that can be stored one after the other.
structure Ready (u : Int) (items : List SavedTrack) (t : Tables) : Prop where
  distinct : (items.map (·.track.id)).Nodup
  new      : ∀ i ∈ items, ¬Stores t u i
  albums   : ∀ i ∈ items, some i.track.album.id ∈ t.albums.map (·.id)
  artists  : ∀ i ∈ items, ∀ a ∈ i.track.artists.map (·.id), some a ∈ t.artists.map (·.id)
  room     : t.lastTrack + items.length < 2 ^ 63

theorem Gains.stores {more : List SavedTrack} (h : Gains u more t t') {i : SavedTrack} :
    Stores t' u i ↔ Stores t u i ∨ i.track.id ∈ more.map (·.track.id) :=
  h.mem_names

theorem Ready.tail {i : SavedTrack} (h : Ready u (i :: items) t) (hg : Gains u [i] t t') :
    Ready u items t' where
  distinct := (List.nodup_cons.mp h.distinct).right
  new      := by
    intro j hj hs
    rcases hg.stores.mp hs with hs | hs
    case inl => exact h.new j (List.mem_cons_of_mem _ hj) hs
    case inr =>
      have he : j.track.id = i.track.id := by simpa using hs
      exact (List.nodup_cons.mp h.distinct).left (List.mem_map.mpr ⟨j, hj, he⟩)
  albums   := fun j hj => hg.albums (h.albums j (List.mem_cons_of_mem _ hj))
  artists  := fun j hj a ha => hg.artists (h.artists j (List.mem_cons_of_mem _ hj) a ha)
  room     := by
    have := h.room
    simp only [hg.last, List.length_cons, List.length_nil] at this ⊢
    omega

theorem leads_addTrack (hk : S.Keeps G) (hu : Datum.IsStorable u) {i : SavedTrack}
    (h : S.Serves G u s) (hr : Ready u (i :: items) (S.scene s).library.tables) :
    S.Leads (Program.library <| .addTrack (.integer u) (trackValues i)
        (i.track.artists.map fun a => .text a.id)) s
      (fun _ => Advances S G u [] [i] s) E := by
  have hl : Datum.IsStorable ((S.scene s).library.tables.lastTrack + 1) := by
    have := h.sound.tables.counters
    have := hr.room
    rw [List.length_cons] at this
    unfold Datum.IsStorable
    omega
  have ⟨l, hp, ht, hc⟩ := Library.Store.perform_addTrack (S.clock s) i.track.name i.addedAt i.track.explicit
    hu hl h.user (hr.albums i List.mem_cons_self) (hr.new i List.mem_cons_self) (hr.artists i List.mem_cons_self)
  have hg : Gains u [i] (S.scene s).library.tables l.tables := by
    rw [ht]
    refine ⟨rfl, List.Subset.refl _, List.Subset.refl _, rfl, rfl, fun c => ?_⟩
    rw [hc, mem_credits_singleton]
  rw [List.map_map] at hp
  exact (leads_library hk (.refl h) hp hg nofun).mono (fun ⟨_, _, h⟩ => h) id

-- The tracks are stored in order, each with its artists.
theorem leads_addTracks (hk : S.Keeps G) (hu : Datum.IsStorable u) (h : S.Serves G u s)
    (hr : Ready u items (S.scene s).library.tables) :
    S.Leads (addTracks u items) s (fun _ => Advances S G u [] items s) E := by
  induction items generalizing s
  case nil => exact .done (.refl h)
  case cons i rest hi =>
    refine (leads_addTrack hk hu h hr).bind fun {_ s₁} h₁ => ?_
    refine (Surroundings.leads_log hk (.refl h₁.serves)).bind fun {_ s₂} hl => ?_
    have h₂ := h₁.idle hl
    exact (hi h₂.serves (hr.tail h₂.gains)).mono h₂.trans id

theorem leads_addAlbums (hk : S.Keeps G) (h : S.Serves G u s) :
    S.Leads (Program.library (.addAlbums ((albumsOf items).map albumValues))) s
      (fun _ s' => Advances S G u [] [] s s' ∧
        ∀ i ∈ items, some i.track.album.id ∈ (S.scene s').library.tables.albums.map (·.id)) E := by
  have ⟨_, l, hp, ht⟩ := (S.scene s).library.perform_addAlbums (S.clock s)
    ((albumsOf items).map albumValues) (by simp [albumValues, Library.Store.albumValues])
  have ⟨hg, hm⟩ := Gains.addAlbums (u := u) (albumsOf items) (t := (S.scene s).library.tables)
  rw [← ht] at hg hm
  refine (leads_library hk (.refl h) hp hg nofun).mono (fun ⟨_, hl, had⟩ => ⟨had, ?_⟩) id
  intro i hi
  have ⟨a, ha, he⟩ := List.mem_map.mp (mem_ids_albumsOf.mpr (List.mem_map_of_mem hi))
  rw [hl, ← he]
  exact hm a ha

theorem leads_addMissingArtists {ids : List String} (ho : Offers S G favorites)
    (hu : Datum.IsStorable u) (h : S.Serves G u s) :
    S.Leads (addMissingArtists ids) s
      (fun _ s' => Advances S G u [] [] s s' ∧
        ∀ a ∈ ids, some a ∈ (S.scene s').library.tables.artists.map (·.id))
      (Halts S G u n [] s) := by
  have hp := (S.scene s).library.perform_knownArtists (S.clock s) (ids.map .text) (by simp)
  refine (leads_library ho.keeps (.refl h) hp .refl nofun).bind fun {known s₁} ⟨hb, hl, h₁⟩ => ?_
  have hm : ∀ a ∈ ids, a ∈ known ↔ some a ∈ (S.scene s₁).library.tables.artists.map (·.id) := by
    intro a ha
    rw [hb, hl]
    exact Tables.mem_knownArtists ⟨.text a, List.mem_map_of_mem ha, rfl⟩
  dsimp only
  split
  case isTrue he =>
    refine .done ⟨h₁, fun a ha => (hm a ha).mp ?_⟩
    simp only [List.isEmpty_iff, List.filter_eq_nil_iff] at he
    simpa using he a ha
  case isFalse =>
    refine ((leads_artists ho hu h₁.serves).mono id (Halts.trans h₁)).bind ?_
    intro found s₂ ⟨hf, had⟩
    have h₂ := h₁.trans had
    have ⟨_, l, hp, ht⟩ := (S.scene s₂).library.perform_addArtists (S.clock s₂)
      (found.map artistValues) (by simp [artistValues, Library.Store.artistValues])
    have ⟨hg, hn⟩ := Gains.addArtists (u := u) found (t := (S.scene s₂).library.tables)
    rw [← ht] at hg hn
    refine (leads_library ho.keeps h₂ hp hg nofun).mono (fun ⟨_, hl', h₃⟩ => ⟨h₃, ?_⟩) id
    intro a ha
    rw [hl']
    -- An artist has been known before or has been looked up.
    by_cases hk : a ∈ known
    case pos => exact hg.artists (had.gains.artists ((hm a ha).mp hk))
    case neg =>
      have ⟨b, hb, he⟩ := List.mem_map.mp (hf (List.mem_filter.mpr ⟨ha, by simpa using hk⟩))
      exact he ▸ hn b hb

-- The favorites of a page that are stored if it is added.
def fresh (t : Tables) (u : Int) (items : List SavedTrack) : List SavedTrack :=
  items.filter (¬Stores t u ·)

theorem mem_fresh {i : SavedTrack} : i ∈ fresh t u items ↔ i ∈ items ∧ ¬Stores t u i := by
  simp [fresh]

-- What is looked up in the library is new as long as the user has not gained a track.
theorem newItems_eq_fresh (hn : (items.map (·.track.id)).Nodup) (hg : Gains u [] t t') :
    newItems (t'.knownTracks (.integer u) (items.map fun i => .text i.track.id)) items
      = fresh t u items := by
  rw [newItems_eq_filter hn]
  refine List.filter_congr fun i hi => ?_
  have hm : i.track.id ∈ t'.knownTracks (.integer u) (items.map fun i => .text i.track.id) ↔
      Stores t u i := by
    rw [Tables.mem_knownTracks]
    constructor
    case mp  => exact fun ⟨hs, _⟩ => (hg.stores.mp hs).elim id nofun
    case mpr => exact fun hs => ⟨hg.stores.mpr (.inl hs), _, List.mem_map_of_mem hi, rfl⟩
  simp [hm]

-- The favorites of a page that are new can be stored once their albums and artists are there.
theorem Ready.ofFresh (hn : (items.map (·.track.id)).Nodup)
    (hr : t.lastTrack + items.length < 2 ^ 63) (hg : Gains u [] t t')
    (hal : ∀ i ∈ items, some i.track.album.id ∈ t'.albums.map (·.id))
    (har : ∀ a ∈ artistIdsOf items, some a ∈ t'.artists.map (·.id)) :
    Ready u (oldestFirst (fresh t u items)) t' := by
  have hp := oldestFirst_perm (fresh t u items)
  have hm : ∀ i ∈ oldestFirst (fresh t u items), i ∈ items ∧ ¬Stores t u i :=
    fun i hi => mem_fresh.mp (hp.mem_iff.mp hi)
  refine ⟨(hp.map _).nodup_iff.mpr (hn.sublist (List.filter_sublist.map _)), ?_, ?_, ?_, ?_⟩
  · exact fun i hi hs => (hm i hi).right ((hg.stores.mp hs).elim id nofun)
  · exact fun i hi => hal i (hm i hi).left
  · exact fun i hi a ha => har a (mem_artistIdsOf.mpr ⟨i, (hm i hi).left, ha⟩)
  · have hl : (fresh t u items).length ≤ items.length := List.length_filter_le ..
    rw [hp.length_eq, hg.last, List.length_nil]
    omega

-- A page is stored as far as it is new, or not at all.
theorem leads_addPage {workers : Int} {sum : Summary} (ho : Offers S G favorites)
    (hu : Datum.IsStorable u) (hw : 1 ≤ workers) (h : S.Serves G u s)
    (hn : (items.map (·.track.id)).Nodup)
    (hr : (S.scene s).library.tables.lastTrack + items.length < 2 ^ 63) :
    S.Leads (addPage workers items sum) s
      (fun r s' => r.1 = (fresh (S.scene s).library.tables u items).length ∧
        Advances S G u [] (oldestFirst (fresh (S.scene s).library.tables u items)) s s')
      (Halts S G u n [] s) := by
  unfold addPage
  split
  case isTrue he =>
    rw [List.isEmpty_iff.mp he]
    exact .done ⟨rfl, by simpa [oldestFirst, fresh] using Advances.refl h⟩
  case isFalse =>
    rw [if_neg (by omega)]
    refine Surroundings.Leads.bind (P := fun o s' => (∃ k, o = .ok k) ∧ Advances S G u [] [] s s' ∧
      ∀ i ∈ items, some i.track.album.id ∈ (S.scene s').library.tables.albums.map (·.id)) ?_ ?_
    case refine_1 =>
      exact ((leads_addAlbums ho.keeps h).mono (fun h => ⟨⟨_, rfl⟩, h⟩) False.elim).outcome
    intro albums s₁ ⟨⟨_, ha⟩, h₁, halbums⟩
    refine Surroundings.Leads.bind (P := fun o s' => (∀ e, o = .error e → Halts S G u n [] s s') ∧
      ∀ k, o = .ok k → Advances S G u [] [] s₁ s' ∧ ∀ a ∈ artistIdsOf items,
        some a ∈ (S.scene s').library.tables.artists.map (·.id)) ?_ ?_
    case refine_1 =>
      refine ((leads_addMissingArtists (n := n) ho hu h₁.serves).mono ?_ ?_).outcome
      case refine_1 => exact fun h => ⟨nofun, fun _ _ => h⟩
      case refine_2 => exact fun h _ => ⟨fun _ _ => h.trans h₁, nofun⟩
    intro artists s₂ ⟨herr, hok⟩
    rw [ha]
    refine Surroundings.Leads.bind (P := fun _ s' => s' = s₂) (.done rfl) fun {_ _} he => ?_
    subst he
    cases artists
    case error e => exact .fail (herr e rfl)
    case ok m =>
      have ⟨h₂', hartists⟩ := hok m rfl
      refine Surroundings.Leads.bind (P := fun _ s' => s' = _) (.done rfl) fun {_ _} he => ?_
      subst he
      have h₂ := h₁.trans h₂'
      refine (Surroundings.leads_session ho.keeps (.refl h₂.serves)).bind fun {x s₃} ⟨hx, hi⟩ => ?_
      rw [hx]
      have h₃ := h₂.idle hi
      have hp := (S.scene s₃).library.perform_knownTracks (S.clock s₃)
        (items.map fun i => .text i.track.id) (Library.accepts_integer.mpr hu) (by simp)
      refine (leads_library ho.keeps h₃ hp .refl nofun).bind fun {known s₄} ⟨hb, hl, h₄⟩ => ?_
      dsimp only
      rw [hb, newItems_eq_fresh hn h₃.gains]
      have hi' := (Advances.refl h₂.serves).idle hi
      have hready := Ready.ofFresh hn hr h₄.gains
        (fun i hm => by rw [hl]; exact (h₂'.trans hi').gains.albums (halbums i hm))
        (fun a ha => by rw [hl]; exact hi'.gains.artists (hartists a ha))
      refine (leads_addTracks ho.keeps hu h₄.serves hready).bind fun {_ s₅} h₅ => ?_
      exact .done ⟨rfl, h₄.trans h₅⟩

end LabelPlaylists.Favorites
