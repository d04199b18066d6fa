import LabelPlaylists.Proofs.Criteria.Complement
import LabelPlaylists.Proofs.Criteria.Known
import LabelPlaylists.Proofs.Library.Search

namespace LabelPlaylists.Library

open Criteria (Condition DayAttribute)

namespace Tables

-- What a condition says of a track; unknown if a day that it compares is missing.
def truth (t : Tables) (c : Condition) (r : Track) : Truth :=
  (t.album? r.albumId).bind fun a => c.test.eval (t.scope r a) c.parameters

-- The day of a track that a condition compares, as far as its text can be read as one.
def dayOf? (t : Tables) (r : Track) : DayAttribute → Option String
  | .added    => StoredDay.ofText? r.addedAt
  | .released => (t.album? r.albumId).bind fun a => a.releasedOn.bind StoredDay.ofText?

-- Two lists that share out the tracks of a user by a condition: those of which it is true or false are
-- in one of them, once. It is true or false of all tracks with the days that it compares.
structure Shares (t : Tables) (u : Int) (c : Condition) (views others : List TrackView) : Prop where
  tracks : ∀ r, r ∈ (views ++ others).map (·.track) ↔
    r ∈ t.tracks ∧ r.userId = u ∧ (t.truth c r).isSome
  once   : ((views ++ others).map (·.track.id)).Nodup
  known  : ∀ r ∈ t.tracks, (∀ a ∈ c.days, (t.dayOf? r a).isSome) → (t.truth c r).isSome

-- Tables in which every album has a release date, whatever it may be.
def Dated (t : Tables) : Prop := ∀ a ∈ t.albums, a.releasedOn.isSome

variable {t : Tables} {c : Condition} {r : Track} {u : Int}

theorem truth_not : t.truth (.not c) r = (t.truth c r).not := by
  unfold truth
  cases t.album? r.albumId <;> rfl

theorem passes_iff_truth : t.passes c.filter r ↔ t.truth c r = some true := by
  unfold passes truth
  cases t.album? r.albumId
  case none   => simp
  case some a => exact beq_iff_eq

theorem passes_not_iff_truth : t.passes (Condition.not c).filter r ↔ t.truth c r = some false := by
  rw [passes_iff_truth, truth_not]
  cases t.truth c r
  case none   => simp [Truth.not]
  case some b => cases b <;> simp [Truth.not]

theorem scope_whole {a : Album} (ha : a.releasedOn.isSome) : Criteria.Whole (t.scope r a) where
  name     := ⟨_, rfl⟩
  album    := ⟨_, rfl⟩
  explicit := ⟨_, rfl⟩
  released := by
    have ⟨s, hs⟩ := Option.isSome_iff_exists.mp ha
    exact ⟨s, congrArg Datum.ofOption hs⟩

theorem dayOf_scope {a : Album} {b : DayAttribute} {d : String} (ha : t.album? r.albumId = some a)
    (h : t.dayOf? r b = some d) : Sql.dayOf ((t.scope r a).value b.column) = .text d := by
  cases b
  case added => exact congrArg Datum.ofOption h
  case released =>
    rw [dayOf?, ha, Option.bind_some] at h
    show Sql.dayOf (.ofOption a.releasedOn) = _
    cases hn : a.releasedOn <;> rw [hn] at h
    case none   => cases h
    case some s => exact congrArg Datum.ofOption h

theorem isSome_truth (hs : t.Sound) (hd : t.Dated) (hr : r ∈ t.tracks)
    (h : ∀ a ∈ c.days, (t.dayOf? r a).isSome) : (t.truth c r).isSome := by
  have ⟨a, hm, hi⟩ := hs.albumOf hr
  have ha := (album?_eq_some_iff hs).mpr ⟨hm, hi⟩
  have hw : Criteria.Whole (t.scope r a) := scope_whole (hd a hm)
  have hd : ∀ b ∈ c.days, ∃ d, Sql.dayOf ((t.scope r a).value b.column) = .text d := fun b hb =>
    have ⟨d, hd⟩ := Option.isSome_iff_exists.mp (h b hb)
    ⟨d, dayOf_scope ha hd⟩
  have he := Condition.isSome_eval hw c hd []
  rw [truth, ha]
  rwa [List.append_nil] at he

theorem shares_found (hs : t.Sound) (hd : t.Dated) :
    t.Shares u c (((t.tracksOf (.integer u)).filter (t.passes c.filter)).filterMap t.view?)
      (((t.tracksOf (.integer u)).filter (t.passes (Condition.not c).filter)).filterMap t.view?) where
  tracks r := by
    rw [List.map_append, List.mem_append, mem_found hs, mem_found hs, passes_iff_truth,
      passes_not_iff_truth, ← and_or_left, ← and_or_left]
    refine and_congr_right fun _ => and_congr_right fun _ => ?_
    cases t.truth c r
    case none   => simp
    case some b => cases b <;> simp
  once := by
    rw [List.map_append]
    refine (nodup_found hs).append (nodup_found hs) fun k hk hk' => ?_
    -- No two tracks share a number, and of no track a condition is both true and false.
    obtain ⟨v, hv, rfl⟩ := List.mem_map.mp hk
    obtain ⟨w, hw, he⟩ := List.mem_map.mp hk'
    obtain ⟨hr, _, ht⟩ := (mem_found hs).mp (List.mem_map_of_mem hv)
    obtain ⟨hr', _, hf⟩ := (mem_found hs).mp (List.mem_map_of_mem hw)
    rw [List.inj_on_of_nodup_map hs.tracks hr' hr he] at hf
    cases (passes_iff_truth.mp ht).symm.trans (passes_not_iff_truth.mp hf)
  known _ := isSome_truth hs hd

end Tables

namespace Store

open Criteria (compile complement)

variable {s : Store} {now : Moment} {u : Int} {text : String} {c d : Condition}

theorem perform_find_ok (hu : Datum.IsStorable u) (hc : compile text = .ok c) (hr : c.test.IsReadable)
    (hl : c.test.IsLow) :
    (s.perform now (.find (.integer u) (some c.filter))).1
      = .ok (((s.tables.tracksOf (.integer u)).filter (s.tables.passes c.filter)).filterMap
          s.tables.view?) := by
  rw [perform_find_of_compile hu hc, Tables.find_ok hr hl]
  rfl

theorem perform_find_error (hu : Datum.IsStorable u) (hc : compile text = .ok c)
    (h : ¬(c.test.IsReadable ∧ c.test.IsLow)) :
    ∃ fault, (s.perform now (.find (.integer u) (some c.filter))).1 = .error (.fault fault) := by
  rw [perform_find_of_compile hu hc]
  by_cases hr : c.test.IsReadable
  case pos =>
    rw [Tables.find_tooHigh hr fun hl => h ⟨hr, hl⟩]
    exact ⟨_, rfl⟩
  case neg =>
    rw [Tables.find_tooDeep hr]
    exact ⟨_, rfl⟩

-- What the store can read behind a negation, it can read without it.
theorem isReadable_of_not (h : (Condition.not c).test.IsReadable) : c.test.IsReadable := by
  have h : 8 + (2 + c.test.pending) ≤ Sql.Test.maxPending := h
  show 8 + c.test.pending ≤ Sql.Test.maxPending
  omega

theorem isLow_of_not (h : (Condition.not c).test.IsLow) : c.test.IsLow := by
  have h : c.test.height + 1 + 2 + c.test.subqueryHeight ≤ Sql.Test.maxHeight := h
  show c.test.height + 2 + c.test.subqueryHeight ≤ Sql.Test.maxHeight
  omega

-- Searches by criteria and by their complement share out the tracks of a user, unless the store cannot
-- read the complement.
theorem perform_find_complement (hs : s.tables.Sound) (hd : s.tables.Dated) (hu : Datum.IsStorable u)
    (hc : compile text = .ok c) (hn : compile (complement text) = .ok d) :
    (d.test.IsReadable ∧ d.test.IsLow →
      ∃ views others, (s.perform now (.find (.integer u) (some c.filter))).1 = .ok views ∧
        (s.perform now (.find (.integer u) (some d.filter))).1 = .ok others ∧
        s.tables.Shares u c views others) ∧
    (¬(d.test.IsReadable ∧ d.test.IsLow) →
      ∃ fault, (s.perform now (.find (.integer u) (some d.filter))).1 = .error (.fault fault)) := by
  obtain rfl := Criteria.compile_complement hc hn
  refine ⟨fun ⟨hr, hl⟩ => ?_, perform_find_error hu hn⟩
  refine ⟨_, _, perform_find_ok hu hc (isReadable_of_not hr) (isLow_of_not hl), perform_find_ok hu hn hr hl, ?_⟩
  exact Tables.shares_found hs hd

end Store

end LabelPlaylists.Library
