import LabelPlaylists.Proofs.CommandLine.Isolation
import LabelPlaylists.Proofs.Library.Case
import LabelPlaylists.Proofs.Playlist.Reported

namespace LabelPlaylists

open Criteria (Condition compared)
open Library (Label Tables Track)

namespace Library.Tables

variable {t : Tables} {l m : Label} {r : Track}

-- A label is told from the other static labels of its user by its name, also if the case of A to Z is ignored.
def Distinct (t : Tables) (l : Label) : Prop :=
  ∀ l' ∈ t.labels, l'.userId = l.userId → l'.criteria = none → l'.id ≠ l.id →
    Text.folded l'.name ≠ Text.folded l.name

-- Two labels that include the same tracks list them in the same order.
theorem Lists.unique {rows rows' : List Track} (h : t.Lists l rows) (h' : t.Lists m rows')
    (hi : ∀ r ∈ t.tracks, t.Includes l r ↔ t.Includes m r) : rows = rows' := by
  have hne {a b : Track} (h : b.addedAt < a.addedAt ∨ a.addedAt = b.addedAt ∧ b.id < a.id) : a ≠ b := by
    rintro rfl
    exact h.elim (String.lt_irrefl _) fun h => Int.lt_irrefl _ h.right
  have hp : rows.Perm rows' := by
    refine (List.perm_ext_iff_of_nodup (h.ordered.imp hne) (h'.ordered.imp hne)).mpr fun r => ?_
    rw [h.tracks, h'.tracks]
    exact and_congr_right (hi r)
  refine hp.eq_of_pairwise (fun a b _ _ hab hba => ?_) h.ordered h'.ordered
  rcases hab with hab | ⟨ha, hab⟩ <;> rcases hba with hba | ⟨hb, hba⟩
  · exact absurd hba (String.lt_asymm hab)
  · exact absurd (hb ▸ hab) (String.lt_irrefl _)
  · exact absurd (ha ▸ hba) (String.lt_irrefl _)
  · exact absurd hba (Int.lt_asymm hab)

-- Criteria that ask for a label by its name are passed by the tracks that carry a static label of that name,
-- whoever the label belongs to.
theorem passes_label (hs : t.Sound) (hr : r ∈ t.tracks) {name : String} (hn : Text.IsPlain name) :
    t.passes (Condition.text .label .equals name).filter r ↔
      ∃ l ∈ t.staticLabelsOf r.id, Text.folded l.name = Text.folded name := by
  have ⟨a, ha⟩ := hs.albumOf hr
  have he : (Condition.text .label .equals name).test.eval (t.scope r a) [.text name]
      = some (decide
          (∃ s ∈ (t.staticLabelsOf r.id).map (·.name), Text.fold s.toList = Text.fold name.toList)) := by
    refine congrArg some (Criteria.any_rows (fun d => ?_) fun s _ => ?_)
    case refine_1 => rw [List.map_map]; rfl
    case refine_2 =>
      have hs : ((t.scope r a).at' .labels (.text s)).value .label = .text s := rfl
      exact Criteria.eval_same name [] hs (.inr hn)
  unfold passes
  rw [(album?_eq_some_iff hs).mpr ha]
  show ((Condition.text .label .equals name).test.eval (t.scope r a) [.text name] == some true) = true ↔ _
  rw [he]
  simp [Text.folded, String.ofList_inj]

-- No other static label of the user has the name that is asked for, and the labels that a track carries are its
-- user's.
theorem includes_mirror (hs : t.Sound) (ho : t.Owned) (hl : l ∈ t.labels) (hc : l.criteria = none)
    (hn : Text.IsPlain l.name) (hd : t.Distinct l) (hm : m.criteria = some (compared .label .eq l.name))
    (hu : m.userId = l.userId) (hr : r ∈ t.tracks) : t.Includes m r ↔ t.Includes l r := by
  rw [includes_static hc, includes_smart hm (Criteria.compile_compared rfl l.name), passes_label hs hr hn, hu]
  constructor
  case mp =>
    intro ⟨hru, l', hl', he⟩
    simp only [staticLabelsOf, List.mem_filter, Bool.and_eq_true, List.contains_iff_mem,
      Option.isNone_iff_eq_none] at hl'
    obtain ⟨hl', hc', hm'⟩ := hl'
    have hlu := ho.memberships _ hm' r hr rfl l' hl' rfl
    have hi : l'.id = l.id := of_not_not fun hi => hd l' hl' (hlu.symm.trans hru) hc' hi he
    exact hi ▸ hm'
  case mpr =>
    intro hm'
    refine ⟨ho.memberships _ hm' r hr rfl l hl rfl, l, ?_, rfl⟩
    simp [staticLabelsOf, hl, hc, hm']

end Library.Tables

namespace Playlist

variable {σ : Type} {S : Surroundings σ} {s : σ} {name : String}

-- The tracks of a static label are those that carry it.
theorem run_resolve_static {k : Int} (hk : Datum.IsStorable k) :
    ((resolve k name none).run S.answer s).1
      = .ok ((S.scene s).library.tables.labelTracks (.integer k), false) := by
  have ⟨ha, _⟩ := Prod.mk.inj (S.library (c := .labelTracks (.integer k)) (s := s) (by nofun))
  rcases (S.scene s).library.perform_asking (c := .labelTracks (.integer k)) rfl with ⟨_, hq⟩ | ⟨hn, _⟩
  case inr => exact absurd hk hn
  case inl =>
    rw [hq] at ha
    simp only [resolve, bind, Program.bind, Program.library, Program.run, ha]
    rfl

-- Those of a smart label are what the search by its criteria comes to.
theorem run_resolve_smart {x : Session} {text : String} {c : Condition} {views : List Library.TrackView} {u k : Int}
    (hs : S.Searches) (hx : (S.scene s).session = some x) (hxu : x.userId = u)
    (hu : Datum.IsStorable u) (hc : Criteria.compile text = .ok c)
    (hv : (S.scene s).library.tables.find (.integer u) (some c.filter) = .ok views) :
    ((resolve k name (some text)).run S.answer s).1 = .ok (views.map (·.track.spotifyId), false) := by
  subst hxu
  have ⟨hx', hs'⟩ := Prod.mk.inj (S.session (s := s))
  have ⟨hq, _⟩ := Prod.mk.inj (hs (u := .integer x.userId) (f := some c.filter) (s := (S.answer .session s).2))
  rw [hs', Library.Store.perform_find_of_compile hu hc, hv] at hq
  rw [hx] at hx'
  simp only [resolve, hc, bind, Program.bind, Program.session, Program.run, search, hx', hq]
  rfl

end Playlist

open Playlist in
-- A smart label can mirror a static one. After any commands it lists the same tracks, in the same order, if its
-- criteria ask for the name of the static label and no other static label of the user has that name.
theorem CommandLine.Reached.resolve_mirror {σ : Type} {S : Surroundings σ} {s : σ} {x : Session} {l : Label}
    (h : Reached (S.scene s).library) (hfind : S.Searches)
    (hx : (S.scene s).session = some x) (hl : l ∈ (S.scene s).library.tables.labels) (hlu : l.userId = x.userId)
    (hc : l.criteria = none) (hu : Datum.IsStorable l.userId) (hi : Datum.IsStorable l.id)
    (hn : Text.IsPlain l.name) (hd : (S.scene s).library.tables.Distinct l) (k : Int) (name : String) :
    ∃ ids, ((resolve l.id l.name l.criteria).run S.answer s).1 = .ok (ids, false) ∧
      ((resolve k name (some (compared .label .eq l.name))).run S.answer s).1 = .ok (ids, false) := by
  have ⟨⟨hs, ho⟩, _⟩ := h.owned
  have hm := Criteria.compile_compared (a := .label) (o := .eq) rfl l.name
  have ⟨hread, hlow⟩ := Condition.textTest_fits .label .equals
  let c : Condition := .text .label .equals l.name
  have hv : (S.scene s).library.tables.find (.integer l.userId) (some c.filter) = _ := Tables.find_ok hread hlow
  have ⟨rows, hrows, he⟩ := Tables.lists_labelTracks hs hc
  let m : Label := { l with criteria := some (compared .label .eq l.name) }
  have hviews := Tables.lists_find (l := m) hs rfl hm hv
  have hsame := hrows.unique hviews fun r hr => (Tables.includes_mirror (m := m) hs ho hl hc hn hd rfl rfl hr).symm
  refine ⟨_, ?_, run_resolve_smart hfind hx hlu.symm hu hm hv⟩
  rw [hc, run_resolve_static hi, he, hsame, List.map_map]
  rfl

namespace Playlist.Sample

-- Quotes and backslashes are written with a backslash before them.
def quoted : String := "A \x22B\x22 \x5c C"

-- A label of that name gets the track that another label carries already.
@[irreducible]
def labelled : List Exchange × Except Failure Unit × Scene :=
  service.trace (CommandLine.addTracks quoted [placeholderTrack])
    (service.trace (CommandLine.createLabel quoted none) scene).2.2

theorem reached_labelled : CommandLine.Reached labelled.2.2.library := by
  have h := (History.reached_by_commands history_scene).command (S := service) service_fair
    (.errand (.createLabel quoted none)) (service.runs_trace _ scene)
  have h := h.command (S := service) service_fair (.errand (.addTracks quoted [placeholderTrack]))
    (service.runs_trace _ _)
  rw [scene_service] at h
  unfold labelled
  exact h

def mirrored : Label := ⟨3, 1, quoted, none, "2024-01-01T12:00:00+00:00"⟩

theorem tables_labelled : labelled.2.2.library.tables.labels = [good, bad, mirrored] ∧
    labelled.2.2.library.tables.labelTracks (.integer 3) = [placeholderTrack] := by
  unfold labelled
  rw [scene_kept]
  decide +kernel

end Playlist.Sample

open Playlist Playlist.Sample in
-- The name of the label holds quotes and a backslash.
theorem CommandLine.Reached.resolve_mirror_quoted :
    compared .label .eq quoted = "label = \x22A \x5c\x22B\x5c\x22 \x5c\x5c C\x22" ∧
    ((resolve 3 quoted none).run service.answer ⟨labelled.2.2.library, some session, []⟩).1
      = .ok ([placeholderTrack], false) ∧
    ((resolve 4 "Mirror" (some (compared .label .eq quoted))).run service.answer
        ⟨labelled.2.2.library, some session, []⟩).1
      = .ok ([placeholderTrack], false) := by
  have ⟨hlabels, htracks⟩ := tables_labelled
  have hscene := library_service labelled.2.2.library (some session) []
  have hreached := hscene.symm ▸ reached_labelled
  have hl : mirrored ∈ (service.scene ⟨labelled.2.2.library, some session, []⟩).library.tables.labels := by
    rw [hscene, hlabels]
    decide
  have hd : (service.scene ⟨labelled.2.2.library, some session, []⟩).library.tables.Distinct mirrored := by
    unfold Tables.Distinct
    rw [hscene, hlabels]
    decide
  have ⟨ids, hs, hm⟩ := resolve_mirror hreached rfl rfl hl rfl rfl (by decide) (by decide) (by decide) hd 4 "Mirror"
  have hr : ((resolve 3 quoted none).run service.answer ⟨labelled.2.2.library, some session, []⟩).1
      = .ok ([placeholderTrack], false) := by
    rw [run_resolve_static (S := service) (by decide), hscene, htracks]
  obtain rfl : ids = [placeholderTrack] := by
    have he := Except.ok.inj (hs.symm.trans hr)
    exact (Prod.mk.inj he).left
  exact ⟨by decide, hr, hm⟩

end LabelPlaylists
