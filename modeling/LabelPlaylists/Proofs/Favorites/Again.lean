import LabelPlaylists.Proofs.Favorites.Sample
import LabelPlaylists.Proofs.Favorites.Stored

namespace LabelPlaylists

-- A program that settles runs to its end by a bound that is large enough.
theorem Surroundings.Settles.runs {σ : Type} {S : Surroundings σ} {t : Nat → Program α} {s s' : σ}
    {o : Except Failure α} (h : S.Settles t s o s') :
    ∃ bound es, S.Runs (t (bound + 1)) s es o s' := by
  have ⟨least, h⟩ := h
  have hr := S.runs_trace (t (least + 1)) s
  have ⟨ho, hs⟩ := Prod.mk.inj (hr.run_eq.symm.trans (h (least + 1) (Nat.lt_succ_self least)))
  rw [ho, hs] at hr
  exact ⟨least, _, hr⟩

namespace Favorites

open Library (Tables)
open Spotify (Artist Call SavedTrack Schema)
open Surroundings (Leads)

variable {σ : Type} {S : Surroundings σ} {G H : σ → Prop} {x : Session} {u : Int} {s s' s'' : σ}
variable {favorites items : List SavedTrack} {reach : Nat → Nat → Bool}
variable {lookup : String → Option (List Artist)} {workers : Int} {ws : List (Int × Int)}

-- The access token of a session does not expire, and the clock stays within the calendar.
structure Lasts (S : Surroundings σ) (H : σ → Prop) (x : Session) : Prop where
  keeps : S.Keeps H
  clock : ∀ {s}, H s → (S.clock s).inUtc.InRange
  live  : ∀ {s}, H s → x.isExpired? (S.clock s).inUtc ≠ some true

-- Windows of the favorites have been asked for, and otherwise nothing has changed.
structure Repeats (S : Surroundings σ) (G H : σ → Prop) (x : Session) (windows : List (Int × Int))
    (s s' : σ) : Prop where
  shown   : G s'
  live    : H s'
  session : (S.scene s').session = some x
  tables  : (S.scene s').library.tables = (S.scene s).library.tables
  changes : (S.scene s').library.changes = (S.scene s).library.changes
  fetched : fetched (S.scene s').calls = fetched (S.scene s).calls ++ windows

theorem addAlbum_idle {t : Tables} {a : Spotify.Album} (h : some a.id ∈ t.albums.map (·.id)) :
    t.addAlbum (albumValues a) = (t, 0) := by
  have h : t.albums.any fun b => b.id = some a.id := by simpa using h
  simp [Tables.addAlbum, albumValues, Datum.text?, h]

theorem addArtist_idle {t : Tables} {a : Artist} (h : some a.id ∈ t.artists.map (·.id)) :
    t.addArtist (artistValues a) = (t, 0) := by
  have h : t.artists.any fun b => b.id = some a.id := by simpa using h
  simp [Tables.addArtist, artistValues, Datum.text?, h]

theorem newItems_eq_nil {known : List String} (h : ∀ i ∈ items, i.track.id ∈ known) :
    newItems known items = [] := by
  induction items
  case nil => rfl
  case cons i rest hi =>
    have ⟨hk, h⟩ := List.forall_mem_cons.mp h
    rw [newItems, if_pos (List.contains_iff_mem.mpr hk), hi h]

namespace Repeats

theorem refl (hg : G s) (hh : H s) (hx : (S.scene s).session = some x) :
    Repeats S G H x [] s s where
  shown   := hg
  live    := hh
  session := hx
  tables  := rfl
  changes := rfl
  fetched := by simp

section

variable (hs : Shows S G favorites reach lookup) (hl : Lasts S H x)
include hs hl

-- A request that leaves the scene as it is.
theorem ask {r : Request} (h : Repeats S G H x ws s s')
    (ha : S.scene (S.answer r s').2 = S.scene s') : Repeats S G H x ws s (S.answer r s').2 where
  shown   := hs.keeps _ _ h.shown
  live    := hl.keeps _ _ h.live
  session := ha ▸ h.session
  tables  := ha ▸ h.tables
  changes := ha ▸ h.changes
  fetched := ha ▸ h.fetched

theorem log {level : Log.Level} {logger message : String} (h : Repeats S G H x ws s s') :
    S.Leads (Program.log level logger message) s' (fun _ => Repeats S G H x ws s) fun _ => False :=
  .ask <| .done <| h.ask hs hl S.log

theorem atSession (h : Repeats S G H x ws s s') :
    S.Leads Program.session s' (fun y s'' => y = x ∧ Repeats S G H x ws s s'') fun _ => False := by
  have ⟨hr, ha⟩ := Prod.mk.inj (S.session (s := s'))
  refine .ask ?_
  rw [hr, h.session]
  exact .done ⟨rfl, h.ask hs hl ha⟩

theorem library {c : Library.Command} {a : c.Reply} {l : Library.Store}
    (h : Repeats S G H x ws s s')
    (hp : (S.scene s').library.perform (S.clock s') c = (.ok a, l))
    (ht : l.tables = (S.scene s').library.tables) (hn : l.changes = (S.scene s').library.changes)
    (hc : ∀ u f, c ≠ .find u f) :
    S.Leads (Program.library c) s' (fun b s'' => b = a ∧ Repeats S G H x ws s s'') fun _ => False := by
  have ⟨hr, ha⟩ := Prod.mk.inj (S.library (s := s') hc)
  rw [hp] at hr ha
  refine .ask ?_
  rw [hr]
  refine .done ⟨rfl, ⟨hs.keeps _ _ h.shown, hl.keeps _ _ h.live, ?_, ?_, ?_, ?_⟩⟩ <;> rw [ha]
  · exact h.session
  · exact ht.trans h.tables
  · exact hn.trans h.changes
  · exact h.fetched

-- A token that is alive is taken as it is.
theorem validToken (h : Repeats S G H x ws s s') :
    S.Leads Account.validToken s' (fun _ => Repeats S G H x ws s) fun _ => False := by
  refine (h.atSession hs hl).bind fun {y s₁} ⟨hy, h⟩ => ?_
  subst hy
  have ⟨hr, ha⟩ := Prod.mk.inj (S.now (s := s₁))
  rw [if_pos (hl.clock h.live)] at hr
  refine Leads.bind (P := fun m s'' => m = (S.clock s₁).inUtc ∧ Repeats S G H y ws s s'') ?_ ?_
  case refine_1 =>
    refine .ask ?_
    rw [hr]
    exact .done ⟨rfl, h.ask hs hl ha⟩
  case refine_2 =>
    intro m s₂ ⟨hm, h₂⟩
    rw [hm, if_neg (hl.live h.live)]
    exact (h₂.atSession hs hl).bind fun ⟨_, h⟩ => .done h

theorem call {c : Call} {schema : Schema α} {a : α} (h : Repeats S G H x ws s s')
    (ha : ∀ s token, G s → heard schema (S.answer (.call token c) s).1 = some a) :
    S.Leads (Account.Service.call c schema) s'
      (fun b s'' => b = a ∧ Repeats S G H x (ws ++ Favorites.fetched [c]) s s'') fun _ => False := by
  refine (h.validToken hs hl).bind fun {token s₁} h => ?_
  have hc := ha s₁ token h.shown
  have h₂ : Repeats S G H x (ws ++ Favorites.fetched [c]) s (S.answer (.call token c) s₁).2 := by
    refine ⟨hs.keeps _ _ h.shown, hl.keeps _ _ h.live, ?_, ?_, ?_, ?_⟩ <;> rw [S.call]
    · exact h.session
    · exact h.tables
    · exact h.changes
    · rw [fetched_append, h.fetched, List.append_assoc]
  refine .ask ?_
  cases hr : (S.answer (.call token c) s₁).1 <;> rw [hr] at hc
  case error => cases hc
  case ok body =>
    cases hb : schema.read body <;> simp only [heard, hb, Except.toOption] at hc <;> cases hc
    simp only [hb]
    exact .done ⟨rfl, h₂⟩

theorem artists {ids : List String} (h : Repeats S G H x ws s s')
    (hi : ∀ id ∈ ids, (lookup id).isSome) :
    S.Leads (Account.Service.artists ids) s'
      (fun found s'' => found = (ids.flatMap fun id => (lookup id).getD []) ∧ Repeats S G H x ws s s'')
      fun _ => False := by
  suffices hb : ∀ (batches : List (List String)) {s'}, Repeats S G H x ws s s' →
      (∀ id ∈ batches.flatten, (lookup id).isSome) →
      S.Leads (Account.Service.artistsOf batches) s'
        (fun found s'' => found = (batches.flatten.flatMap fun id => (lookup id).getD []) ∧
          Repeats S G H x ws s s'') fun _ => False by
    have := hb (pieces Account.Service.moreArtists ids) h
    rw [flatten_pieces] at this
    exact this hi
  intro batches
  induction batches
  case nil => exact fun h _ => .done ⟨rfl, h⟩
  case cons batch rest hr =>
    intro s' h hi
    rw [List.flatten_cons] at hi
    have hb : batch.all fun id => (lookup id).isSome :=
      List.all_eq_true.mpr fun id hm => hi id (List.mem_append_left _ hm)
    refine (h.log hs hl).bind fun h => ?_
    have ha (s : σ) (token : String) (hg : G s) :
        heard Schema.artists (S.answer (.call token (.artists batch)) s).1
          = some ⟨batch.flatMap fun id => (lookup id).getD []⟩ :=
      (hs.artists hg).trans (if_pos hb)
    refine (h.call hs hl ha).bind fun {a s₁} ⟨ha, h⟩ => ?_
    rw [show Favorites.fetched [Call.artists batch] = [] from rfl, List.append_nil] at h
    refine (hr h fun id hm => hi id (List.mem_append_right _ hm)).bind fun {others s₂} ⟨ho, h⟩ => ?_
    exact .done ⟨by rw [ha, ho, List.flatten_cons, List.flatMap_append], h⟩

-- Of artists that are there or cannot be found none is added.
theorem addMissingArtists {ids : List String} (h : Repeats S G H x ws s s')
    (hf : Found lookup ids (S.scene s).library.tables) :
    S.Leads (addMissingArtists ids) s' (fun k s'' => k = 0 ∧ Repeats S G H x ws s s'') fun _ => False := by
  have hp := (S.scene s').library.perform_knownArtists (S.clock s') (ids.map .text) (by simp)
  refine (h.library hs hl hp rfl rfl (fun _ _ he => by cases he)).bind fun {known s₁} h₁ => ?_
  obtain ⟨hk, h₁⟩ := h₁
  dsimp only
  split
  case isTrue  => exact .done ⟨rfl, h₁⟩
  case isFalse =>
    have hm : ∀ id ∈ ids.filter fun id => !known.contains id,
        ∃ found, lookup id = some found ∧
          ∀ b ∈ found, some b.id ∈ (S.scene s).library.tables.artists.map (·.id) := by
      intro id hi
      obtain ⟨hi, hn⟩ := List.mem_filter.mp hi
      refine (hf id hi).resolve_left fun ha => ?_
      rw [← h.tables] at ha
      have hknown := (Tables.mem_knownArtists ⟨.text id, List.mem_map_of_mem hi, rfl⟩).mpr ha
      rw [← hk] at hknown
      simp [hknown] at hn
    have hi : ∀ id ∈ ids.filter fun id => !known.contains id, (lookup id).isSome := by
      intro id hi
      obtain ⟨found, hl, _⟩ := hm id hi
      rw [hl]
      rfl
    refine (h₁.artists hs hl hi).bind fun {found s₂} h₂ => ?_
    obtain ⟨ha, h₂⟩ := h₂
    have hidle : ∀ v ∈ found.map artistValues, (S.scene s₂).library.tables.addArtist v
        = ((S.scene s₂).library.tables, 0) := by
      intro v hv
      obtain ⟨b, hb, he⟩ := List.mem_map.mp hv
      rw [ha] at hb
      obtain ⟨id, hid, hb⟩ := List.mem_flatMap.mp hb
      obtain ⟨answer, hw, hall⟩ := hm id hid
      rw [hw] at hb
      rw [h₂.tables, ← he]
      exact addArtist_idle (hall b hb)
    obtain ⟨l, hp, ht, hn⟩ := Library.Store.perform_addArtists_idle (S.clock s₂)
      (by simp [artistValues, Library.Store.artistValues]) hidle
    exact h₂.library hs hl hp ht hn (fun _ _ he => by cases he)

-- A page of which nothing is left to be stored is added once more.
theorem addPage {sum : Summary} (h : Repeats S G H x ws s s')
    (hc : Complete x.userId lookup items (S.scene s).library.tables)
    (hw : items ≠ [] → 1 ≤ workers ∧ Datum.IsStorable x.userId) :
    S.Leads (addPage workers items sum) s' (fun r s'' => r = (0, sum) ∧ Repeats S G H x ws s s'')
      fun _ => False := by
  unfold Favorites.addPage
  split
  case isTrue => exact .done ⟨rfl, h⟩
  case isFalse he =>
    obtain ⟨hw, hu⟩ := hw fun hn => he (List.isEmpty_iff.mpr hn)
    rw [if_neg (by omega)]
    refine Leads.bind (P := fun o s'' => o = .ok 0 ∧ Repeats S G H x ws s s'') ?_ ?_
    case refine_1 =>
      have hidle : ∀ v ∈ (albumsOf items).map albumValues, (S.scene s').library.tables.addAlbum v
          = ((S.scene s').library.tables, 0) := by
        intro v hv
        obtain ⟨a, ha, he⟩ := List.mem_map.mp hv
        obtain ⟨i, hi, hia⟩ := List.mem_map.mp (mem_ids_albumsOf.mp (List.mem_map_of_mem ha))
        rw [h.tables, ← he]
        exact addAlbum_idle (hia ▸ hc.albums i hi)
      obtain ⟨l, hp, ht, hn⟩ := Library.Store.perform_addAlbums_idle (S.clock s')
        (by simp [albumValues, Library.Store.albumValues]) hidle
      exact ((h.library hs hl hp ht hn (fun _ _ he => by cases he)).mono (And.imp_left (congrArg _)) False.elim).outcome
    rintro albums s₁ ⟨ha, h⟩
    refine Leads.bind (P := fun o s'' => o = .ok 0 ∧ Repeats S G H x ws s s'') ?_ ?_
    case refine_1 =>
      exact ((h.addMissingArtists hs hl hc.artists).mono (And.imp_left (congrArg _)) False.elim).outcome
    rintro artists s₂ ⟨hb, h⟩
    subst ha hb
    refine Leads.bind (P := fun k s'' => k = 0 ∧ Repeats S G H x ws s s'') (.done ⟨rfl, h⟩) ?_
    rintro _ _ ⟨hk, h⟩
    subst hk
    refine Leads.bind (P := fun k s'' => k = 0 ∧ Repeats S G H x ws s s'') (.done ⟨rfl, h⟩) ?_
    rintro _ _ ⟨hk, h⟩
    subst hk
    refine (h.atSession hs hl).bind fun {y s₃} h => ?_
    obtain ⟨hy, h⟩ := h
    subst hy
    have hp := (S.scene s₃).library.perform_knownTracks (S.clock s₃)
      (items.map fun i => .text i.track.id) (Library.accepts_integer.mpr hu) (by simp)
    refine (h.library hs hl hp rfl rfl (fun _ _ he => by cases he)).bind fun {known s₄} h₄ => ?_
    obtain ⟨hk, h₄⟩ := h₄
    have hall : newItems known items = [] := by
      refine newItems_eq_nil fun i hi => ?_
      rw [hk, h.tables]
      exact Tables.mem_knownTracks.mpr ⟨hc.tracks i hi, _, List.mem_map_of_mem hi, rfl⟩
    have hnone : oldestFirst [] = [] := (oldestFirst_perm []).eq_nil
    dsimp only
    rw [hall, hnone]
    exact .done ⟨rfl, h₄⟩

-- The first page is pulled once more.
theorem turn (sum : Summary) (h : Repeats S G H x [] s s') (hr : reach 0 5)
    (hc : Complete x.userId lookup (favorites.take 5) (S.scene s).library.tables)
    (hw : favorites.take 5 ≠ [] → 1 ≤ workers ∧ Datum.IsStorable x.userId) :
    S.Leads (turn workers (offset 0) (limit 0) sum) s'
      (fun r s'' => r = (0, { sum with pages := sum.pages + 1 }) ∧ Repeats S G H x [(0, 5)] s s'')
      fun _ => False := by
  have ha (s : σ) (token : String) (hg : G s) :
      heard Schema.savedTracks (S.answer (.call token (.savedTracks (limit 0) (offset 0))) s).1
        = some ⟨favorites.take 5⟩ :=
    (hs.favorites hg).trans (if_pos hr)
  refine Leads.bind (P := fun page s'' => page.items = favorites.take 5 ∧ Repeats S G H x [(0, 5)] s s'')
    ((h.log hs hl).bind fun h => (h.call hs hl ha).mono (fun ⟨hp, h⟩ => ⟨hp ▸ rfl, h⟩) id) ?_
  intro page s₁ ⟨hp, h⟩
  rw [hp]
  refine (h.addPage hs hl hc hw).bind fun {r s₂} ⟨hr, h⟩ => ?_
  subst hr
  exact (h.log hs hl).bind fun h => .done ⟨rfl, h⟩

end

end Repeats

-- When all pages are there, the pull is finished.
theorem settles_pull {sum total : Summary} {s₁ s₂ : σ}
    (h : S.Settles (fun pages => pullFrom workers pages (offset 0) (limit 0) {}) s (.ok sum) s₁)
    (hf : (finish sum).run S.answer s₁ = (.ok total, s₂)) :
    S.Settles (fun pages => pull pages workers) s (.ok total) s₂ := by
  have ⟨least, h⟩ := h
  refine ⟨least, fun bound hb => ?_⟩
  dsimp only at h ⊢
  rw [pull_eq]
  exact (Program.run_bind_ok (h bound hb)).trans hf

-- A pull that comes to its end is started once more, while Spotify shows the same and the access token
-- lives on. It asks for the first window again, finds nothing new, and changes nothing in the library.
theorem pull_again {total : Summary} {s₁ : σ} (hs : Shows S G favorites reach lookup) (hg : G s)
    (hu : ∃ y, (S.scene s).session = some y)
    (h : S.Settles (fun pages => pull pages workers) s (.ok total) s₁)
    (hl : Lasts S H x) (hh : H s₁) (hx : (S.scene s₁).session = some x) :
    ∃ s₂, S.Settles (fun pages => pull pages workers) s₁ (.ok ⟨1, 0, 0, 0⟩) s₂ ∧
      (S.scene s₂).library.tables = (S.scene s₁).library.tables ∧
      (S.scene s₂).library.changes = (S.scene s₁).library.changes ∧
      fetched (S.scene s₂).calls = fetched (S.scene s₁).calls ++ [(0, 5)] := by
  have ⟨y, hy⟩ := hu
  have ⟨pages, es, hrun⟩ := h.runs
  have ⟨hr, hc, hw⟩ := hs.pull_inv hg ⟨y, hy, rfl⟩ hrun
  have ⟨z, hz, hzu⟩ := hc.session
  cases hx.symm.trans hz
  rw [← hzu] at hc hw
  have h₀ : Repeats S G H x [] s₁ s₁ := .refl (hrun.good hs.keeps hg) hh hx
  rcases (h₀.turn hs hl {} hr hc.tables hw).cases with ⟨r, s₂, hrun₂, hr, h₂⟩ | ⟨_, _, _, hf⟩
  case inr => exact hf.elim
  subst hr
  -- Nothing new is less than a page, so the pull ends with the first one.
  have hlast := settles_last (n := 0) hrun₂ (by decide)
  have hfin : S.Leads (finish ⟨1, 0, 0, 0⟩) s₂
      (fun total s'' => total = ⟨1, 0, 0, 0⟩ ∧ Repeats S G H x [(0, 5)] s₁ s'') fun _ => False :=
    (h₂.log hs hl).bind fun h => .done ⟨rfl, h⟩
  rcases hfin.cases with ⟨_, s₃, hrun₃, ht, h₃⟩ | ⟨_, _, _, hf⟩
  case inr => exact hf.elim
  subst ht
  exact ⟨s₃, settles_pull hlast hrun₃, h₃.tables, h₃.changes, h₃.fetched⟩

namespace Sample

-- A favorite that is listed twice.
def twice : List SavedTrack := [favorite "t1", favorite "t1"]

theorem shows : Shows (account twice fun _ => true) (fun _ => True) twice (fun _ _ => true)
    fun id => some [⟨id, id, []⟩] where
  keeps     := fun _ _ _ => trivial
  favorites := fun _ => heard_savedTracks
  artists   := fun _ => by
    rw [heard_artists]
    simp [List.map_eq_flatMap]

def alice : Session := ⟨1, "alice", "token", "refresh", noon⟩

theorem lasts : Lasts (account twice fun _ => true) (fun _ => True) alice where
  keeps := fun _ _ _ => trivial
  clock := fun _ => by
    show noon.inUtc.InRange
    decide
  live  := fun _ => by
    show alice.isExpired? noon.inUtc ≠ some true
    decide

end Sample

open Sample in
-- The first pull stores one track and its artist, the second one nothing.
theorem pull_again_listed_twice : ∃ s₁ s₂,
    Shows (account twice fun _ => true) (fun _ => True) twice (fun _ _ => true)
      (fun id => some [⟨id, id, []⟩]) ∧
    Lasts (account twice fun _ => true) (fun _ => True) alice ∧
    (account twice fun _ => true).Settles (fun pages => pull pages 1) (scene tables) (.ok ⟨1, 0, 1, 1⟩) s₁ ∧
    s₁.session = some alice ∧ s₁.library.tables.tracks.length = 1 ∧
    (account twice fun _ => true).Settles (fun pages => pull pages 1) s₁ (.ok ⟨1, 0, 0, 0⟩) s₂ ∧
    s₂.library.tables = s₁.library.tables ∧ fetched s₂.calls = [(0, 5), (0, 5)] := by
  let S := account twice fun _ => true
  let page := (turn 1 (offset 0) (limit 0) {}).run S.answer (scene tables)
  have hpage : page.1.toOption = some (1, ⟨1, 0, 1, 1⟩) := by decide +kernel
  have hrun : page = (.ok (1, ⟨1, 0, 1, 1⟩), page.2) := by
    refine Prod.ext ?_ rfl
    cases hp : page.1 <;> rw [hp] at hpage <;> cases hpage
    rfl
  have h := settles_pull (S := S) (settles_last (n := 0) hrun (by decide)) rfl
  have hx : page.2.session = some alice := by decide +kernel
  have hf : fetched page.2.calls = [(0, 5)] := by decide +kernel
  have ⟨s₂, h₂, ht, _, hf₂⟩ := pull_again shows trivial ⟨alice, rfl⟩ h lasts trivial hx
  have hf₂ : fetched s₂.calls = [(0, 5), (0, 5)] := hf₂.trans (congrArg (· ++ [(0, 5)]) hf)
  exact ⟨page.2, s₂, shows, lasts, h, hx, by decide +kernel, h₂, ht, hf₂⟩

end Favorites

end LabelPlaylists
