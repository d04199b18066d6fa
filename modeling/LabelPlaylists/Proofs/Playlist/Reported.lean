import LabelPlaylists.Proofs.Criteria.Limits
import LabelPlaylists.Proofs.Library.Partition
import LabelPlaylists.Proofs.Library.Undone
import LabelPlaylists.Proofs.Playlist.Materialized

namespace LabelPlaylists

open Criteria (IsUsable compile isValid)
open Library (Label PlaylistView Store)
open Playlist

-- Surroundings in which the store performs every search.
def Surroundings.Searches {σ : Type} (S : Surroundings σ) : Prop :=
  ∀ {u f s}, ((S.answer (.library (.find u f)) s).1, S.scene (S.answer (.library (.find u f)) s).2)
    = (((S.scene s).library.perform (S.clock s) (.find u f)).1,
       { S.scene s with library := ((S.scene s).library.perform (S.clock s) (.find u f)).2 })

namespace Library.Store

variable {s : Store} {now : Moment} {u : Int} {text : String} {c : Criteria.Condition}

-- The store runs accepted criteria if and only if it can.
theorem perform_find_of_isUsable (s : Store) (now : Moment) (hu : Datum.IsStorable u) (hc : compile text = .ok c) :
    (IsUsable text → ∃ views, (s.perform now (.find (.integer u) (some c.filter))).1 = .ok views) ∧
      (¬IsUsable text →
        ∃ fault, (s.perform now (.find (.integer u) (some c.filter))).1 = .error (.fault fault)) := by
  rw [Criteria.isUsable_iff hc]
  exact ⟨fun ⟨hr, hl⟩ => ⟨_, perform_find_ok hu hc hr hl⟩, perform_find_error hu hc⟩

theorem perform_find_of_not_isStorable (hu : ¬Datum.IsStorable u) {f : Option Sql.Filter} :
    (s.perform now (.find (.integer u) f)).1 = .error .numberTooLarge := by
  have hb : Work.bound (.integer u :: filterValues f) s = (.error .numberTooLarge, s) := by
    simp [Work.bound, Work.refusal?, hu]
  have hw : work now (.find (.integer u) f) s = (.error .numberTooLarge, s) := Work.bind_error hb
  simp [perform, hw]

end Library.Store

namespace Surroundings

variable {σ : Type} {S : Surroundings σ} {s s' : σ} {es : List Exchange} {v : PlaylistView} {workers : Int}
variable {arrange : List PlaylistView → List PlaylistView} {first : List Label → List Label}

-- What has been answered stands among the exchanges.
theorem Runs.library_exchanges {c : Library.Command} {a : c.Reply}
    (h : S.Runs (Program.library c) s es (.ok a) s') : es = [⟨.library c, .ok a⟩] := by
  have ⟨_, he, h⟩ := h.ask_inv
  cases hr : (S.answer (.library c) s).1 <;> rw [hr] at he h
  case error => cases h.fail_inv.right.left
  case ok =>
    have ⟨hn, ho, _⟩ := h.done_inv
    cases ho
    rw [he, hn]

theorem Runs.reportFailure_ok_inv {name text reason : String} {r : Resolved}
    (h : S.Runs (reportFailure name text reason) s es (.ok r) s') : r = ([], true) := by
  have ⟨_, _, h⟩ := h.ask_inv
  cases h.done_inv.right.left
  rfl

-- Criteria are reported exactly if the store cannot run them.
theorem Runs.resolve_reports (hs : S.Searches) {id : Int} {name : String} {criteria : Option String}
    {r : Resolved} (h : S.Runs (resolve id name criteria) s es (.ok r) s') :
    r.2 = true ↔ ∃ text, criteria = some text ∧ ¬IsUsable text := by
  unfold resolve at h
  split at h
  case h_1 =>
    have ⟨_, _, _, _, _, _, h⟩ := h.bind_ok_inv
    cases h.done_inv.right.left
    exact iff_of_false nofun nofun
  case h_2 text =>
    have hiff : (∃ t, some text = some t ∧ ¬IsUsable t) ↔ ¬IsUsable text := by simp
    rw [hiff]
    split at h
    case h_1 e he =>
      have ⟨_, _, _, _, _, h⟩ := h.log_bind_inv
      cases h.reportFailure_ok_inv
      refine iff_of_true rfl fun ⟨_, hc, _⟩ => ?_
      cases he.symm.trans hc
    case h_2 c hc =>
      have ⟨x, s₁, _, _, _, _, h⟩ := h.bind_ok_inv
      have ⟨_, _, h⟩ := h.ask_inv
      rw [(Prod.mk.inj hs).left] at h
      by_cases hu : Datum.IsStorable x.userId
      case neg =>
        rw [Store.perform_find_of_not_isStorable hu] at h
        cases h.fail_inv.right.left
      case pos =>
        have ⟨hok, hn⟩ := (S.scene s₁).library.perform_find_of_isUsable (S.clock s₁) hu hc
        by_cases huse : IsUsable text
        case pos =>
          have ⟨_, hf⟩ := hok huse
          rw [hf] at h
          cases h.done_inv.right.left
          exact iff_of_false nofun (not_not_intro huse)
        case neg =>
          have ⟨_, hf⟩ := hn huse
          rw [hf] at h
          cases Runs.reportFailure_ok_inv h
          exact iff_of_true rfl huse

theorem Runs.pushOne_reports (hs : S.Searches) {found : Nat × Bool}
    (h : S.Runs (pushOne v) s es (.ok found) s') :
    found.2 = true ↔ ∃ text, v.criteria = some text ∧ ¬IsUsable text := by
  have ⟨_, _, _, _, _, h₁, h⟩ := h.bind_ok_inv
  have ⟨_, _, _, _, _, _, h⟩ := h.bind_ok_inv
  have ⟨_, _, _, _, _, h⟩ := h.log_bind_inv
  cases h.done_inv.right.left
  exact h₁.resolve_reports hs

-- A push lists playlists, and reports the labels with criteria that the store cannot run.
theorem Runs.pushIn_reports (hs : S.Searches) (ha : ∀ ps, (arrange ps).Perm ps) {total : Summary}
    (h : S.Runs (pushIn first arrange workers) s es (.ok total) s') :
    ∃ u views n results, ⟨.library (.playlists u), .ok views⟩ ∈ es ∧ total = summary n results ∧
      (results.map Prod.fst).Perm views ∧
      ∀ r ∈ results, r.2.2 = true ↔ ∃ text, r.1.criteria = some text ∧ ¬IsUsable text := by
  have ⟨n, _, _, _, he, _, h⟩ := h.bind_ok_inv
  have ⟨results, _, _, _, he₁, h₁, h⟩ := h.bind_ok_inv
  have ⟨_, _, _, _, _, h⟩ := h.log_bind_inv
  cases h.done_inv.right.left
  have ⟨x, _, _, _, he₂, _, h₁⟩ := h₁.bind_ok_inv
  have ⟨views, _, _, _, he₃, h₂, h₁⟩ := h₁.bind_ok_inv
  have hviews : ⟨.library (.playlists (.integer x.userId)), .ok views⟩ ∈ es := by
    simp [he, he₁, he₂, he₃, h₂.library_exchanges]
  refine ⟨_, views, n, results, hviews, rfl, ?_⟩
  rcases h₁.inParallel_inv with ⟨_, _, _, _, ho⟩ | ⟨found, _, _, _, hfound, _, _, _, hor⟩
  case inl => cases ho
  have ⟨hfst, hruns⟩ := hfound.runs
  rcases hor with ⟨_, ho, hr⟩ | ⟨_, _, ho, _⟩ <;> cases ho
  subst hr
  refine ⟨?_, fun r hr => ?_⟩
  · rw [List.map_map] at hfst
    exact (List.Perm.of_eq hfst).trans (ha views)
  · have ⟨_, _, _, h⟩ := hruns _ (List.mem_map_of_mem hr)
    exact h.pushOne_reports hs

end Surroundings

namespace Criteria

theorem isValid_of_compile {text : String} {c : Condition} (h : compile text = .ok c) : isValid text := by
  rw [isValid, problem?, h]
  rfl

namespace Sample

-- A user whose only label has criteria, and a playlist already.
def scene : Scene :=
  Favorites.Sample.scene
    { Favorites.Sample.tables with
      labels    := [⟨1, 1, "Loud", some "explicit", "now"⟩]
      playlists := [⟨1, 1, 1, "playlist1"⟩] }

def total : Summary := ⟨0, 1, 0, []⟩

theorem trace_push : (Playlist.Sample.service.trace (push 2) scene).2.1.toOption = some total := by
  decide +kernel

end Sample

end Criteria

end LabelPlaylists
