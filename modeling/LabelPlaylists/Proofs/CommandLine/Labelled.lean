import LabelPlaylists.CommandLine.Labels
import LabelPlaylists.Proofs.Library.Mapping
import LabelPlaylists.Proofs.Library.Membership
import LabelPlaylists.Proofs.Playlist.Sample

namespace LabelPlaylists

open Library (Label Store Tables Track TrackView)

namespace Library

variable {t t' t'' : Tables} {u k : Int} {ids : List String}

-- Tracks of a user come to carry a label, those that have the given ids. Nothing else changes.
structure Tables.Gains (t : Tables) (u k : Int) (ids : List String) (t' : Tables) : Prop where
  rest        : t' = { t with memberships := t'.memberships }
  memberships : ∀ m, m ∈ t'.memberships ↔
    m ∈ t.memberships ∨ m.labelId = k ∧ ∃ id ∈ ids, (t.trackOf? u id).map (·.id) = some m.trackId

namespace Tables.Gains

theorem refl : t.Gains u k [] t where
  rest        := rfl
  memberships := by simp

-- First one track, then the others.
theorem cons {id : String} (h : t.Gains u k [id] t') (h' : t'.Gains u k ids t'') : t.Gains u k (id :: ids) t'' where
  rest        := by rw [h'.rest, h.rest]
  memberships := by
    have ht (i : String) : t'.trackOf? u i = t.trackOf? u i := by
      rw [h.rest]
      rfl
    intro m
    simp [h'.memberships, h.memberships, ht, and_or_left, or_assoc]

-- A track that is found is given the label.
theorem of_addMembership {id : String} {r : Track} {n : Nat} (hr : t.trackOf? u id = some r)
    (e : t.addMembership (.integer r.id) k = .ok (t', n)) : t.Gains u k [id] t' where
  rest        := by cases Command.Effect.of_addMembership (l := .integer k) rfl e <;> rfl
  memberships := by
    have ⟨_, hm⟩ := mem_addMembership e
    intro m
    simp [hm, hr, Datum.whole?, and_comm]

-- No other label gains or loses a track.
theorem other {m : Membership} (h : t.Gains u k ids t') (hm : m.labelId ≠ k) :
    m ∈ t'.memberships ↔ m ∈ t.memberships := by
  simp [h.memberships, hm]

end Tables.Gains

-- A track of the user is listed with its album.
theorem Tables.view?_isSome {r : Track} (hs : t.Sound) (hr : r ∈ t.tracks) : (t.view? r).isSome := by
  rw [view?, Option.isSome_map]
  exact album?_isSome_iff.mpr (hs.trackAlbums (List.mem_map_of_mem hr))

theorem Tables.Fits.track (hf : t.Fits) (hs : t.Sound) {r : Track} (hr : r ∈ t.tracks) : Datum.IsStorable r.id := by
  have hf := hf.tracks
  have := hs.trackNumbers r hr
  simp only [Datum.IsStorable] at *
  omega

namespace Store

variable {s : Store} {l : Label} {r : Track}

-- Whether a label that is there may be given tracks.
theorem staticLabel_eq (hs : s.tables.Sound) (hl : l ∈ s.tables.labels) (hk : Datum.IsStorable l.id) :
    staticLabel (.integer l.id) s =
      if l.criteria.isSome then (.error (.smartLabel (.integer l.id)), s) else (.ok l.id, s) := by
  have hb : Work.bound [.integer l.id] s = (.ok (), s) := Work.bound_ok (by simpa using hk) s
  have hf : s.tables.label? l.id = some l := (Tables.label?_eq_some_iff hs).mpr ⟨hl, rfl⟩
  have ht : Work.current s = (.ok s.tables, s) := rfl
  rw [staticLabel, Work.bind_ok hb, Work.bind_ok ht]
  simp only [Datum.whole?, Option.bind_some, hf]
  split <;> rfl

theorem perform_addMembership_smart (now : Moment) (hs : s.tables.Sound) (hl : l ∈ s.tables.labels)
    (hk : Datum.IsStorable l.id) (hc : l.criteria ≠ none) {d : Datum} :
    s.perform now (.addMembership d (.integer l.id)) = (.error (.smartLabel (.integer l.id)), s) := by
  have hq := staticLabel_eq hs hl hk
  rw [if_pos (Option.isSome_iff_ne_none.mpr hc)] at hq
  simp [perform, work, bind, Work.bind, hq]

-- A track of the library is given a static label for good.
theorem perform_addMembership_static (now : Moment) (hs : s.tables.Sound) (hl : l ∈ s.tables.labels)
    (hk : Datum.IsStorable l.id) (hc : l.criteria = none) (hr : r ∈ s.tables.tracks) (hi : Datum.IsStorable r.id) :
    ∃ t n, s.tables.addMembership (.integer r.id) l.id = .ok (t, n) ∧
      s.perform now (.addMembership (.integer r.id) (.integer l.id))
        = (.ok (), { s with saved := t, tables := t, changes := s.changes + n }) := by
  have hq := staticLabel_eq hs hl hk
  rw [if_neg (by simp [hc])] at hq
  have hr' := Option.isNone_eq_false_iff.mpr (Tables.track?_isSome_iff.mpr (List.mem_map_of_mem hr))
  have hl' := Option.isNone_eq_false_iff.mpr (Tables.label?_isSome_iff.mpr (List.mem_map_of_mem hl))
  obtain ⟨t, n, ht⟩ : ∃ t n, s.tables.addMembership (.integer r.id) l.id = .ok (t, n) := by
    simp only [Tables.addMembership, Datum.whole?, hr', hl']
    by_cases hm : s.tables.memberships.contains ⟨r.id, l.id⟩
    case pos => exact ⟨_, _, if_pos hm⟩
    case neg => exact ⟨_, _, if_neg hm⟩
  refine ⟨t, n, ht, perform_ok ?_⟩
  rw [work, Work.bind_ok hq, Work.bind_ok (Work.bound_ok (by simpa using hi) s), Work.bind_ok (Work.change_ok ht)]
  rfl

-- A label is looked for by its name. A number that cannot be asked for is nobody's.
theorem perform_labelNamed_cases (now : Moment) (hs : s.tables.Sound) (hf : s.tables.Fits) (u : Int) (name : String) :
    s.perform now (.labelNamed (.integer u) (.text name)) = (.ok (s.tables.labelNamed? u name), s) ∨
      s.tables.labelNamed? u name = none ∧
        ∃ e, s.perform now (.labelNamed (.integer u) (.text name)) = (.error e, s) := by
  by_cases hu : Datum.IsStorable u
  case pos => exact .inl (perform_ok <| Work.bind_ok <| Work.bound_ok (by simpa using hu) s)
  case neg =>
    refine .inr ⟨List.find?_eq_none.mpr fun l hl hk => hu ?_, .numberTooLarge, ?_⟩
    case refine_1 =>
      have hk : l.userId = u ∧ l.name = name := by simpa using hk
      exact hk.left ▸ hf.user hs (hs.labelUsers (List.mem_map_of_mem hl))
    case refine_2 => simp [perform, work, bind, Work.bind, Work.bound, Work.refusal?, hu]

-- A track is looked for among the tracks of a user.
theorem perform_trackNamed (now : Moment) (hs : s.tables.Sound) (hu : Datum.IsStorable u) (id : String) :
    ∃ found, s.perform now (.trackNamed (.integer u) (.text id)) = (.ok found, s) ∧
      found.map (·.track) = s.tables.trackOf? u id := by
  refine ⟨_, perform_ok <| Work.bind_ok <| Work.bound_ok (by simpa using hu) s, ?_⟩
  cases hr : s.tables.trackOf? u id
  case none => simp [Datum.whole?, Datum.text?, hr]
  case some r =>
    obtain ⟨v, hv⟩ := Option.isSome_iff_exists.mp (Tables.view?_isSome hs (List.mem_of_find?_eq_some hr))
    simp [Datum.whole?, Datum.text?, hr, hv, Tables.view?_track hv]

end Store

end Library

namespace CommandLine

-- The failure of a command that is given an id without a stored track.
def noTrack (id : String) : Failure := .usage (.badValue "TRACK_IDS" ("No stored track '" ++ id ++ "'"))

-- What adding tracks of a user to a label comes to, by their ids:
-- 1. a smart label refuses the first track
-- 2. the first id without a stored track is refused, and the tracks before it have been added
-- 3. all have been added
inductive Adds (t : Tables) (u : Int) (l : Label) : List String → Except Failure Unit → Tables → Prop
  | smart {id rest} :
    l.criteria ≠ none → (t.trackOf? u id).isSome →
    Adds t u l (id :: rest) (.error (.library (.smartLabel (.integer l.id)))) t
  | missing {before id after t'} :
    (l.criteria ≠ none → before = []) → (∀ i ∈ before, (t.trackOf? u i).isSome) → t.trackOf? u id = none →
    t.Gains u l.id before t' → Adds t u l (before ++ id :: after) (.error (noTrack id)) t'
  | all {ids t'} :
    (l.criteria ≠ none → ids = []) → (∀ i ∈ ids, (t.trackOf? u i).isSome) → t.Gains u l.id ids t' →
    Adds t u l ids (.ok ()) t'

-- One track has been added before.
theorem Adds.cons {t t₁ t' : Tables} {u : Int} {l : Label} {id : String} {ids : List String}
    {o : Except Failure Unit} (hc : l.criteria = none) (hi : (t.trackOf? u id).isSome)
    (hg : t.Gains u l.id [id] t₁) (h : Adds t₁ u l ids o t') : Adds t u l (id :: ids) o t' := by
  have ht (i : String) : t₁.trackOf? u i = t.trackOf? u i := by
    rw [hg.rest]
    rfl
  cases h
  case smart hn _ => exact absurd hc hn
  case missing before i after _ hb hn h =>
    simp only [ht] at hb hn
    show Adds t u l ((id :: before) ++ i :: after) _ _
    exact .missing (absurd hc) (List.forall_mem_cons.mpr ⟨hi, hb⟩) hn (hg.cons h)
  case all _ hb h =>
    simp only [ht] at hb
    exact .all (absurd hc) (List.forall_mem_cons.mpr ⟨hi, hb⟩) (hg.cons h)

end CommandLine

open CommandLine (Adds addEach addTracks noTrack)

namespace Surroundings.Runs

variable {σ : Type} {S : Surroundings σ} {s s' : σ} {es : List Exchange} {u : Int} {l : Label} {ids : List String}
variable {id name : String} {o : Except Failure Unit}

-- A label is looked for by its name, which leaves the scene as it is.
theorem label_inv {o : Except Failure Label} (hs : (S.scene s).library.tables.Sound)
    (hf : (S.scene s).library.tables.Fits) (h : S.Runs (CommandLine.label u name) s es o s') :
    S.scene s' = S.scene s ∧
      ((∃ e, o = .error e) ∧ (S.scene s).library.tables.labelNamed? u name = none ∨
        ∃ l, o = .ok l ∧ (S.scene s).library.tables.labelNamed? u name = some l) := by
  have hfind : ∀ d f, Library.Command.labelNamed (.integer u) (.text name) ≠ .find d f := nofun
  rcases Store.perform_labelNamed_cases (S.clock s) hs hf u name with hq | ⟨hn, e, hq⟩
  case inl =>
    rcases h.bind_inv with ⟨_, _, h₁⟩ | ⟨_, _, _, _, _, h₁, h⟩ <;>
      have ⟨ho₁, hk⟩ := h₁.library_ok_inv hfind hq <;> cases ho₁
    cases hn : (S.scene s).library.tables.labelNamed? u name <;> rw [hn] at h
    case none =>
      have ⟨_, ho, hk'⟩ := h.fail_inv
      exact ⟨hk' ▸ hk, .inl ⟨⟨_, ho⟩, rfl⟩⟩
    case some l =>
      have ⟨_, ho, hk'⟩ := h.done_inv
      exact ⟨hk' ▸ hk, .inr ⟨l, ho, rfl⟩⟩
  case inr =>
    rcases h.bind_inv with ⟨e, ho, h₁⟩ | ⟨_, _, _, _, _, h₁, _⟩ <;>
      have ⟨_, ho₁, hk⟩ := h₁.library_inv hfind
    all_goals rw [hq] at ho₁ hk
    case inl => exact ⟨hk, .inl ⟨⟨e, ho⟩, hn⟩⟩
    case inr => cases ho₁

-- One id after the other is looked for, and its track is added if there is one.
theorem addEach_cons_inv (hs : (S.scene s).library.tables.Sound) (hf : (S.scene s).library.tables.Fits)
    (hl : l ∈ (S.scene s).library.tables.labels) (hu : l.userId = u)
    (h : S.Runs (addEach u l.id (id :: ids)) s es o s') :
    ((S.scene s').library = (S.scene s).library ∧
      ((S.scene s).library.tables.trackOf? u id = none ∧ o = .error (noTrack id) ∨
        ((S.scene s).library.tables.trackOf? u id).isSome ∧ l.criteria ≠ none ∧
          o = .error (.library (.smartLabel (.integer l.id))))) ∨
    ∃ s₁ rest, S.Runs (addEach u l.id ids) s₁ rest o s' ∧
      ((S.scene s).library.tables.trackOf? u id).isSome ∧ l.criteria = none ∧
      (S.scene s).library.tables.Gains u l.id [id] (S.scene s₁).library.tables ∧
      (S.scene s₁).library.tables.Sound ∧ (S.scene s₁).library.saved = (S.scene s₁).library.tables := by
  have hk := hf.label hs hl
  have hus := hf.user hs (hs.labelUsers (List.mem_map_of_mem hl))
  rw [hu] at hus
  have ⟨found, hq, hfound⟩ := Store.perform_trackNamed (S.clock s) hs hus id
  rcases h.bind_inv with ⟨e, ho, h₁⟩ | ⟨_, s₁, _, _, _, h₁, h⟩ <;>
    have ⟨ho₁, hk₁⟩ := h₁.library_ok_inv (fun _ _ hc => by cases hc) hq <;> cases ho₁
  have hk₁ : (S.scene s₁).library = (S.scene s).library := congrArg Scene.library hk₁
  cases found
  case none =>
    have ⟨_, ho, hk'⟩ := h.fail_inv
    exact .inl ⟨hk' ▸ hk₁, .inl ⟨hfound.symm, ho⟩⟩
  case some v =>
    have hr : v.track ∈ (S.scene s).library.tables.tracks := List.mem_of_find?_eq_some hfound.symm
    have hi : ((S.scene s).library.tables.trackOf? u id).isSome := by rw [← hfound]; rfl
    rw [← hk₁] at hs hl hr
    by_cases hc : l.criteria = none
    case neg =>
      have hq := Store.perform_addMembership_smart (S.clock s₁) (d := .integer v.track.id) hs hl hk hc
      rcases h.bind_inv with ⟨e, ho, h₂⟩ | ⟨_, _, _, _, _, h₂, _⟩ <;>
        have ⟨_, ho₂, hk₂⟩ := h₂.library_inv fun _ _ hc => by cases hc
      all_goals rw [hq] at ho₂ hk₂
      case inr => cases ho₂
      case inl =>
        cases ho₂
        exact .inl ⟨(congrArg Scene.library hk₂).trans hk₁, .inr ⟨hi, hc, ho⟩⟩
    case pos =>
      have hfv : Datum.IsStorable v.track.id := (hk₁ ▸ hf : (S.scene s₁).library.tables.Fits).track hs hr
      have ⟨t, n, ht, hq⟩ := Store.perform_addMembership_static (S.clock s₁) hs hl hk hc hr hfv
      rcases h.bind_inv with ⟨e, ho, h₂⟩ | ⟨_, s₂, _, rest, _, h₂, h⟩ <;>
        have ⟨ho₂, hk₂⟩ := h₂.library_ok_inv (fun _ _ hc => by cases hc) hq <;> cases ho₂
      have hk₂ := congrArg Scene.library hk₂
      have hg := Tables.Gains.of_addMembership hfound.symm (hk₁ ▸ ht)
      refine .inr ⟨s₂, rest, h, hi, hc, ?_, ?_, ?_⟩ <;> rw [hk₂]
      case refine_1 => exact hg
      case refine_2 => exact (Library.Command.Effect.of_addMembership (l := .integer l.id) rfl ht).sound hs

-- Stops at the first id that is refused; what has been added before stays.
theorem addEach_inv (hs : (S.scene s).library.tables.Sound) (hf : (S.scene s).library.tables.Fits)
    (hl : l ∈ (S.scene s).library.tables.labels) (hu : l.userId = u)
    (h : S.Runs (addEach u l.id ids) s es o s') :
    Adds (S.scene s).library.tables u l ids o (S.scene s').library.tables ∧
      ((S.scene s').library = (S.scene s).library ∨
        (S.scene s').library.saved = (S.scene s').library.tables) := by
  induction ids generalizing s es
  case nil =>
    have ⟨_, ho, hk⟩ := h.done_inv
    rw [ho, hk]
    exact ⟨.all (fun _ => rfl) (List.forall_mem_nil _) .refl, .inl rfl⟩
  case cons id ids hr =>
    rcases h.addEach_cons_inv hs hf hl hu
      with ⟨hk, ⟨hn, ho⟩ | ⟨hi, hc, ho⟩⟩ | ⟨s₁, _, h, hi, hc, hg, hs₁, hsaved⟩
    case inl.inl =>
      rw [ho, hk]
      have ha : Adds (S.scene s).library.tables u l ([] ++ id :: ids) (.error (noTrack id)) _ :=
        .missing (fun _ => rfl) (List.forall_mem_nil _) hn .refl
      exact ⟨ha, .inl rfl⟩
    case inl.inr =>
      rw [ho, hk]
      exact ⟨.smart hc hi, .inl rfl⟩
    case inr =>
      have hf₁ : (S.scene s₁).library.tables.Fits := by
        rw [hg.rest]
        exact ⟨hf.users, hf.tracks, hf.labels⟩
      have ⟨ha, hsv⟩ := hr hs₁ hf₁ (by rw [hg.rest]; exact hl) h
      refine ⟨ha.cons hc hi hg, .inr ?_⟩
      rcases hsv with hk | hsv
      case inl => rw [hk, hsaved]
      case inr => exact hsv

-- Tracks are added to a label one by one, each for good. The command is broken off at the first id without a
-- stored track and does not take back what it has added before. Nothing is added to a label that is not there or
-- is smart.
theorem addTracks_adds {x : Session} (hfair : S.Fair) (hs : (S.scene s).library.tables.Sound)
    (hf : (S.scene s).library.tables.Fits) (hx : (S.scene s).session = some x)
    (h : S.Runs (addTracks name ids) s es o s') :
    ((∃ e, o = .error e) ∧ (S.scene s).library.tables.labelNamed? x.userId name = none ∧
      (S.scene s').library = (S.scene s).library) ∨
    ∃ l, (S.scene s).library.tables.labelNamed? x.userId name = some l ∧
      Adds (S.scene s).library.tables x.userId l ids o (S.scene s').library.tables ∧
      ((S.scene s').library = (S.scene s).library ∨
        (S.scene s').library.saved = (S.scene s').library.tables) := by
  have ⟨_, s₁, _, hk₁, h⟩ := h.session_bind_inv hx
  rw [← hk₁] at hs hf ⊢
  rcases h.bind_inv with ⟨e, ho, h₂⟩ | ⟨l, s₂, _, _, _, h₂, h⟩ <;> have ⟨hk₂, hl⟩ := h₂.label_inv hs hf
  case inl =>
    rcases hl with ⟨_, hn⟩ | ⟨_, ho₂, _⟩
    case inr => cases ho₂
    case inl => exact .inl ⟨⟨e, ho⟩, hn, congrArg Scene.library hk₂⟩
  rcases hl with ⟨⟨_, ho₂⟩, _⟩ | ⟨_, ho₂, hl⟩ <;> cases ho₂
  have hm : l ∈ (S.scene s₁).library.tables.labels ∧ l.userId = x.userId := by
    have hu : l.userId = x.userId ∧ l.name = name := by simpa using List.find?_some hl
    exact ⟨List.mem_of_find?_eq_some hl, hu.left⟩
  refine .inr ⟨l, hl, ?_⟩
  rw [← hk₂] at hs hf hm ⊢
  rcases h.bind_inv with ⟨e, ho, h₃⟩ | ⟨_, s₃, _, _, _, h₃, h⟩ <;>
    have ⟨ha, hsv⟩ := h₃.addEach_inv hs hf hm.left hm.right
  case inl => exact ⟨ho ▸ ha, hsv⟩
  case inr =>
    have ⟨_, _, h⟩ := h.ask_inv
    have ⟨_, ho, hk⟩ := h.done_inv
    rw [hk, hfair.print, ho]
    exact ⟨ha, hsv⟩

end Surroundings.Runs

namespace CommandLine.Sample

open Playlist (placeholderTrack)

-- A label is to get its first track.
def bare : Simulation.World :=
  let tables := { Playlist.Sample.kept.tables with memberships := [] }
  { Playlist.Sample.world with
    library := ⟨"library", tables, tables, 0⟩, session := some Playlist.Sample.session }

theorem bare_sound : bare.library.tables.Sound := by
  constructor <;> decide

theorem bare_fits : bare.library.tables.Fits := by
  constructor <;> decide

-- The second id has no stored track.
def halfKnown : List String := [placeholderTrack, "missing"]

end CommandLine.Sample

open CommandLine.Sample Simulation in
-- The command fails, and the label has got a track all the same.
theorem addTracks_halfKnown_not_undone :
    ∃ es e w, World.surroundings.Runs (addTracks "Good" halfKnown) bare es (.error e) w ∧
      ⟨1, 1⟩ ∉ bare.library.tables.memberships ∧ ⟨1, 1⟩ ∈ w.library.tables.memberships := by
  have h := World.surroundings.runs_trace (addTracks "Good" halfKnown) bare
  have hq : (World.surroundings.trace (addTracks "Good" halfKnown) bare).2.1.toOption = none ∧
      (⟨1, 1⟩ : Library.Membership) ∉ bare.library.tables.memberships ∧
      ⟨1, 1⟩ ∈ (World.surroundings.trace (addTracks "Good" halfKnown) bare).2.2.library.tables.memberships := by
    decide +kernel
  generalize World.surroundings.trace (addTracks "Good" halfKnown) bare = r at h hq
  obtain ⟨es, _ | _, w⟩ := r
  case ok => cases hq.left
  case error e => exact ⟨es, e, w, h, hq.right⟩

open CommandLine.Sample Simulation in
-- It is told of the second id, and the track of the first one has been added for good.
theorem addTracks_adds_halfKnown :
    ∃ es e l w, World.surroundings.Runs (addTracks "Good" halfKnown) bare es (.error e) w ∧
      bare.library.tables.labelNamed? 1 "Good" = some l ∧
      Adds bare.library.tables 1 l halfKnown (.error e) w.library.tables ∧
      w.library.saved.memberships = [⟨1, 1⟩] := by
  have h := World.surroundings.runs_trace (addTracks "Good" halfKnown) bare
  have hq : (World.surroundings.trace (addTracks "Good" halfKnown) bare).2.1.toOption = none ∧
      (World.surroundings.trace (addTracks "Good" halfKnown) bare).2.2.library.saved.memberships = [⟨1, 1⟩] := by
    decide +kernel
  have hn : bare.library.tables.labelNamed? 1 "Good" ≠ none := by decide +kernel
  generalize World.surroundings.trace (addTracks "Good" halfKnown) bare = r at h hq
  obtain ⟨es, _ | _, w⟩ := r
  case ok => cases hq.left
  case error e =>
    rcases h.addTracks_adds (s := bare) World.fair bare_sound bare_fits rfl with ⟨_, ho, _⟩ | ⟨l, hl, ha, _⟩
    case inl => exact absurd ho hn
    case inr => exact ⟨es, e, l, w, h, hl, ha, hq.right⟩

end LabelPlaylists
