import LabelPlaylists.Proofs.Library.Search
import LabelPlaylists.Proofs.Playlist.Content
import LabelPlaylists.Proofs.Playlist.History

namespace LabelPlaylists

open Criteria (compile)

namespace Library.Tables

-- The tracks of a static label carry it. Those of a smart label are of its user and pass its criteria.
def Includes (t : Tables) (l : Label) (r : Track) : Prop :=
  match l.criteria with
  | none      => ⟨r.id, l.id⟩ ∈ t.memberships
  | some text => r.userId = l.userId ∧ ∃ c, compile text = .ok c ∧ t.passes c.filter r

-- The tracks of a label, from the newest favorite on.
structure Lists (t : Tables) (l : Label) (rows : List Track) : Prop where
  tracks  : ∀ r, r ∈ rows ↔ r ∈ t.tracks ∧ t.Includes l r
  ordered : rows.Pairwise fun a b => b.addedAt < a.addedAt ∨ a.addedAt = b.addedAt ∧ b.id < a.id

variable {t t' : Tables} {l : Label}

theorem includes_static (hl : l.criteria = none) {r : Track} :
    t.Includes l r ↔ ⟨r.id, l.id⟩ ∈ t.memberships := by
  simp only [Includes, hl]

theorem includes_smart {text : String} {c : Criteria.Condition} (hl : l.criteria = some text)
    (hc : compile text = .ok c) {r : Track} :
    t.Includes l r ↔ r.userId = l.userId ∧ t.passes c.filter r := by
  simp [Includes, hl, hc]

theorem lists_labelTracks (hs : t.Sound) (hl : l.criteria = none) :
    ∃ rows, t.Lists l rows ∧ t.labelTracks (.integer l.id) = rows.map (·.spotifyId) := by
  refine ⟨listed (t.tracks.filter fun r => t.memberships.contains ⟨r.id, l.id⟩), ⟨fun r => ?_, ?_⟩, rfl⟩
  · rw [mem_listed, List.mem_filter, List.contains_iff_mem, includes_static hl]
  · exact pairwise_listed (hs.nodup_filter _)

theorem lists_find (hs : t.Sound) {text : String} {c : Criteria.Condition} (hl : l.criteria = some text)
    (hc : compile text = .ok c) {views : List TrackView}
    (h : t.find (.integer l.userId) (some c.filter) = .ok views) : t.Lists l (views.map (·.track)) := by
  unfold find at h
  dsimp only at h
  split at h
  case isTrue => cases h
  case isFalse =>
    split at h <;> cases h
    have ho := pairwise_listed (hs.nodup_filter (·.userId = l.userId))
    refine ⟨fun r => ?_, List.pairwise_map.mpr (pairwise_views (ho.filter _))⟩
    rw [includes_smart hl hc]
    exact mem_found hs

-- Playlists and tokens have no part in the tracks of a label.
theorem Lists.of_matches {rows : List Track} (hm : t.Matches t') (h : t'.Lists l rows) : t.Lists l rows := by
  refine ⟨fun r => ?_, h.ordered⟩
  show r ∈ rows ↔ r ∈ t.others.tracks ∧ t.others.Includes l r
  rw [← hm.others]
  exact h.tracks r

end Library.Tables

open Library (Label Tables)

-- The store answers a search by compiled criteria, or the search fails and leaves the scene as it is.
theorem Surroundings.Fair.search {σ : Type} {S : Surroundings σ} {s : σ} {u : Int} {text : String}
    {c : Criteria.Condition} (hf : S.Fair) (hu : Datum.IsStorable u) (hc : compile text = .ok c)
    (hs : (S.scene s).library.saved = (S.scene s).library.tables) :
    S.scene (S.answer (.library (.find (.integer u) (some c.filter))) s).2 = S.scene s ∧
      ((∃ views, (S.answer (.library (.find (.integer u) (some c.filter))) s).1 = .ok views ∧
          (S.scene s).library.tables.find (.integer u) (some c.filter) = .ok views) ∨
        ∃ e, (S.answer (.library (.find (.integer u) (some c.filter))) s).1 = .error e ∧
          e ≠ .numberTooLarge) := by
  rcases hf.find (u := .integer u) (f := some c.filter) (s := s) with h | ⟨h, hk⟩
  case inr => exact ⟨hk, .inr h⟩
  case inl =>
    have ⟨hr, hk⟩ := Prod.mk.inj h
    rw [Library.Store.perform_find_of_compile hu hc] at hr
    rw [Library.Store.perform_idle (by exact id) hs] at hk
    refine ⟨hk, ?_⟩
    rw [hr]
    cases (S.scene s).library.tables.find (.integer u) (some c.filter)
    case ok views => exact .inl ⟨views, rfl, rfl⟩
    case error e  => exact .inr ⟨.fault e, rfl, nofun⟩

namespace Playlist

-- The criteria of a label do not compile, or a search by them has failed.
def Fails (l : Label) (es : List Exchange) : Prop :=
  ∃ text, l.criteria = some text ∧
    ((∃ e, compile text = .error e) ∨
      ∃ c f, compile text = .ok c ∧ ⟨.library (.find (.integer l.userId) (some c.filter)), .error f⟩ ∈ es)

-- All tracks of a label have been found, or none because its criteria have failed.
inductive Resolves (t : Tables) (l : Label) (es : List Exchange) : Resolved → Prop
  | found {rows} : t.Lists l rows → Resolves t l es (rows.map (·.spotifyId), false)
  | failed : Fails l es → Resolves t l es ([], true)

variable {t : Tables} {l : Label} {es more : List Exchange} {r : Resolved}

theorem Fails.mono (h : Fails l es) (hs : es ⊆ more) : Fails l more :=
  have ⟨text, hl, hor⟩ := h
  ⟨text, hl, hor.imp id fun ⟨c, f, hc, hm⟩ => ⟨c, f, hc, hs hm⟩⟩

theorem Resolves.mono (h : Resolves t l es r) (hs : es ⊆ more) : Resolves t l more r := by
  cases h
  case found h  => exact .found h
  case failed h => exact .failed (h.mono hs)

end Playlist

namespace Surroundings.Runs

open Playlist

variable {σ : Type} {S : Surroundings σ} {s s' : σ} {es : List Exchange} {t : Tables} {l : Label}

-- Failed criteria are reported.
theorem reportFailure_inv {text reason : String} {o : Except Failure Resolved}
    (h : S.Runs (reportFailure l.name text reason) s es o s') :
    called es = [] ∧ S.scene s' = S.scene s ∧ o = .ok ([], true) := by
  have ⟨_, he, h⟩ := h.ask_inv
  have ⟨hn, ho, hs⟩ := h.done_inv
  exact ⟨by rw [he, hn]; rfl, hs ▸ S.log, ho⟩

-- The tracks of a label are found without any call, and nothing changes.
theorem resolve_inv {o : Except Failure Resolved} (hf : S.Fair) (hu : Datum.IsStorable l.userId)
    (hl : Datum.IsStorable l.id) (hp : Filling l.userId t (S.scene s))
    (h : S.Runs (resolve l.id l.name l.criteria) s es o s') :
    called es = [] ∧ S.scene s' = S.scene s ∧ ∃ r, o = .ok r ∧ Resolves t l es r := by
  unfold resolve at h
  split at h
  case h_1 hn =>
    rcases (S.scene s).library.perform_asking (c := .labelTracks (.integer l.id)) rfl with ⟨_, hq⟩ | ⟨hn, _⟩
    case inr => exact absurd hl hn
    rcases h.bind_inv with ⟨_, _, h₁⟩ | ⟨_, _, _, _, he, h₁, h⟩ <;>
      have ⟨ho₁, hs₁⟩ := h₁.library_ok_inv (by nofun) hq <;> cases ho₁
    have ⟨he₁, _, _⟩ := h₁.library_inv (by nofun)
    have ⟨he₂, ho, hs₂⟩ := h.done_inv
    have ⟨rows, hrows, hr⟩ := Tables.lists_labelTracks hp.sound hn
    refine ⟨by rw [he, he₁, he₂]; rfl, by rw [hs₂, hs₁], _, ho, ?_⟩
    rw [hr]
    exact .found (hrows.of_matches hp.matched)
  case h_2 text hn =>
    split at h
    case h_1 e hc =>
      have ⟨_, _, s₁, he, hs₁, h⟩ := h.log_bind_inv
      have ⟨hr, hs₂, ho⟩ := h.reportFailure_inv
      exact ⟨by rw [he, called_cons, hr]; rfl, hs₂.trans hs₁, _, ho, .failed ⟨text, hn, .inl ⟨e, hc⟩⟩⟩
    case h_2 c hc =>
      have ⟨x, hx, hxu⟩ := hp.session
      have ⟨_, s₁, he₁, hs₁, h⟩ := h.session_bind_inv hx
      rw [hxu] at h
      rw [← hs₁] at hp ⊢
      have ⟨rest, he₂, h⟩ := h.ask_inv
      have ⟨hs₂, hor⟩ := hf.search hu hc hp.saved
      rcases hor with ⟨views, hr, hfind⟩ | ⟨e, hr, hne⟩ <;> rw [hr] at he₂ h
      case inl =>
        have ⟨he₃, ho, hs₃⟩ := h.done_inv
        have hrows := (Tables.lists_find hp.sound hn hc hfind).of_matches hp.matched
        have hfound : Resolves t l es _ := .found hrows
        rw [List.map_map] at hfound
        exact ⟨by rw [he₁, he₂, he₃]; rfl, hs₃ ▸ hs₂, _, ho, hfound⟩
      case inr =>
        have h : S.Runs (reportFailure l.name text e.message)
            (S.answer (.library (.find (.integer l.userId) (some c.filter))) s₁).2 rest o s' := by
          cases e <;> first | exact h | exact absurd rfl hne
        have ⟨hn₃, hs₃, ho⟩ := h.reportFailure_inv
        refine ⟨by rw [he₁, he₂, called_cons, called_cons, hn₃]; rfl, hs₃.trans hs₂, _, ho, .failed ?_⟩
        refine ⟨text, hn, .inr ⟨c, e, hc, ?_⟩⟩
        rw [he₁, he₂]
        exact List.mem_cons_of_mem _ List.mem_cons_self

end Surroundings.Runs

end LabelPlaylists
