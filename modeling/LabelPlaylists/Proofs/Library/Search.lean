import LabelPlaylists.Proofs.Criteria.Filter
import LabelPlaylists.Proofs.Criteria.Negated
import LabelPlaylists.Proofs.Library.Listing
import LabelPlaylists.Proofs.Library.Plain

namespace LabelPlaylists.Library

namespace Tables

-- What the tables say of a track from an album.
def facts (t : Tables) (r : Track) (a : Album) : Criteria.Facts where
  name       := r.name
  album      := a.name
  artists    := (t.credited r.id).map (·.name)
  genres     := (t.credited r.id).flatMap Artist.genreNames
  labels     := (t.carried r.id).map (·.name)
  isExplicit := r.explicit
  added      := StoredDay.day? r.addedAt
  released   := a.releasedOn.bind StoredDay.day?
  year       := a.releasedOn.map fun s => Sql.leadingNumber (s.toList.take 4)

-- The tracks of a user of which a predicate is true, from the newest favorite on.
structure Finds (t : Tables) (u : Int) (p : Criteria.Tree) (views : List TrackView) : Prop where
  tracks  : ∀ r, r ∈ views.map (·.track) ↔ r ∈ t.tracks ∧ r.userId = u ∧
    ∃ a ∈ t.albums, a.id = some r.albumId ∧ p.meaning (t.facts r a) = some true
  once    : (views.map (·.track.id)).Nodup
  ordered : views.Pairwise fun v w => w.track.addedAt < v.track.addedAt ∨
    v.track.addedAt = w.track.addedAt ∧ w.track.id < v.track.id
  albums  : ∀ v ∈ views, ∃ a ∈ t.albums, a.id = some v.track.albumId ∧ v.albumName = a.name
  artists : ∀ v ∈ views, v.artists.Perm ((t.credited v.track.id).map (·.name))

variable {t : Tables} {r : Track} {a : Album}

theorem mem_artistsOf {k : Int} {b : Artist} (h : b ∈ t.artistsOf k) : b ∈ t.artists :=
  (List.mem_filter.mp h).left

theorem mem_staticLabelsOf {k : Int} {l : Label} (h : l ∈ t.staticLabelsOf k) : l ∈ t.labels :=
  (List.mem_filter.mp h).left

theorem facts_isPlain (hs : t.Sound) (hp : t.IsPlain) (hr : r ∈ t.tracks) (ha : a ∈ t.albums) :
    ∀ s ∈ (t.facts r a).name :: (t.facts r a).album :: (t.facts r a).artists
      ++ (t.facts r a).genres ++ (t.facts r a).labels, Text.IsPlain s := by
  intro s h
  simp only [facts, List.cons_append, List.mem_cons, List.mem_append, List.mem_map,
    List.mem_flatMap, mem_credited hs, mem_carried hs] at h
  rcases h with rfl | rfl | (⟨b, hb, rfl⟩ | ⟨b, hb, hg⟩) | ⟨l, hl, rfl⟩
  · exact hp.tracks r hr
  · exact (hp.albums a ha).left
  · exact (hp.artists b (mem_artistsOf hb)).left
  · exact (genreValues_eq (hp.artists b (mem_artistsOf hb)).right).right s hg
  · exact hp.labels l (mem_staticLabelsOf hl)

theorem yearOf_releasedOn (h : ∀ s ∈ a.releasedOn, Text.IsPlain s) :
    Sql.yearOf (.ofOption a.releasedOn)
      = ((t.facts r a).year.map Datum.integer).getD .null := by
  unfold facts
  dsimp only
  cases hn : a.releasedOn
  case none => rfl
  case some s =>
    have ht : s.toList.takeWhile (·.toNat ≠ 0) = s.toList :=
      List.takeWhile_eq_self_iff.mpr fun c hc => decide_eq_true (h s hn c hc)
    show Datum.integer (Sql.leadingNumber ((s.toList.takeWhile (·.toNat ≠ 0)).take 4)) = _
    rw [ht]
    rfl

theorem facts_stored (hs : t.Sound) (hp : t.IsPlain) (hr : r ∈ t.tracks) (ha : a ∈ t.albums) :
    (t.facts r a).Stored (t.scope r a) where
  name     := rfl
  album    := rfl
  artists  := by simp [facts, scope, mem_credited hs]
  genres d := by
    have hg (b : Artist) (hb : b ∈ t.artistsOf r.id) :
        genreValues b.genres = b.genreNames.map .text :=
      (genreValues_eq (hp.artists b (mem_artistsOf hb)).right).left
    simp only [facts, scope, List.map_flatMap, List.mem_flatMap, mem_credited hs]
    exact exists_congr fun b => and_congr_right fun hb => by rw [hg b hb]
  labels   := by simp [facts, scope, mem_carried hs]
  explicit := rfl
  added    := congrArg Datum.ofOption (StoredDay.ofText?_eq r.addedAt)
  released := by
    unfold facts
    show Sql.dayOf (.ofOption a.releasedOn) = _
    cases a.releasedOn
    case none   => rfl
    case some s => exact congrArg Datum.ofOption (StoredDay.ofText?_eq s)
  year     := yearOf_releasedOn (hp.albums a ha).right
  addedFits    := fun _ => StoredDay.day?_fits
  releasedFits := by
    intro d hd
    have ⟨_, _, hd⟩ := Option.bind_eq_some_iff.mp hd
    exact StoredDay.day?_fits hd
  plain    := facts_isPlain hs hp hr ha

-- The test of accepted criteria passes the tracks of which the criteria are true.
theorem passes_iff (hs : t.Sound) (hp : t.IsPlain) (hr : r ∈ t.tracks) {p : Criteria.Tree}
    {c : Criteria.Condition} (hc : Criteria.Condition.ofTree p = .ok c) :
    t.passes c.filter r ↔
      ∃ a ∈ t.albums, a.id = some r.albumId ∧ p.meaning (t.facts r a) = some true := by
  have he (a : Album) (ha : a ∈ t.albums) :
      c.filter.passes (t.scope r a) ↔ p.meaning (t.facts r a) = some true := by
    have he := Criteria.Condition.eval_ofTree (facts_stored hs hp hr ha) p hc []
    rw [List.append_nil] at he
    show (c.test.eval (t.scope r a) c.parameters == some true) = true ↔ _
    rw [he, beq_iff_eq]
  unfold passes
  split
  case h_1 a ha =>
    have ⟨hm, hi⟩ := (album?_eq_some_iff hs).mp ha
    constructor
    case mp  => exact fun h => ⟨a, hm, hi, (he a hm).mp h⟩
    case mpr =>
      intro ⟨b, hb, hj, h⟩
      have hb := (album?_eq_some_iff hs).mpr ⟨hb, hj⟩
      cases ha.symm.trans hb
      exact (he a hm).mpr h
  case h_2 hn =>
    refine iff_of_false nofun fun ⟨b, hb, hj, _⟩ => ?_
    have hb := (album?_eq_some_iff hs).mpr ⟨hb, hj⟩
    cases hn.symm.trans hb

section

variable {tracks : List Track}

theorem view?_track {v : TrackView} (h : t.view? r = some v) : v.track = r := by
  have ⟨_, _, he⟩ := Option.map_eq_some_iff.mp h
  rw [← he]

-- Views stand in the order of their tracks.
theorem pairwise_views {R : Track → Track → Prop} (h : tracks.Pairwise R) :
    (tracks.filterMap t.view?).Pairwise fun v w => R v.track w.track :=
  h.filterMap _ fun _ _ hr _ hv _ hw => by rwa [view?_track hv, view?_track hw]

-- A track is listed if it has an album.
theorem mem_views (hs : t.Sound) :
    r ∈ (tracks.filterMap t.view?).map (·.track) ↔
      r ∈ tracks ∧ ∃ a ∈ t.albums, a.id = some r.albumId := by
  constructor
  case mp =>
    intro h
    have ⟨v, hv, he⟩ := List.mem_map.mp h
    have ⟨r', hr, hv⟩ := List.mem_filterMap.mp hv
    obtain rfl : r' = r := (view?_track hv).symm.trans he
    have ⟨a, ha, _⟩ := Option.map_eq_some_iff.mp hv
    exact ⟨hr, a, (album?_eq_some_iff hs).mp ha⟩
  case mpr =>
    intro ⟨hr, a, ha⟩
    have ha := (album?_eq_some_iff hs).mpr ha
    have hv : t.view? r = some _ := Option.map_eq_some_iff.mpr ⟨a, ha, rfl⟩
    exact List.mem_map.mpr ⟨_, List.mem_filterMap.mpr ⟨r, hr, hv⟩, rfl⟩

theorem of_mem_views (hs : t.Sound) {v : TrackView} (h : v ∈ tracks.filterMap t.view?) :
    (∃ a ∈ t.albums, a.id = some v.track.albumId ∧ v.albumName = a.name) ∧
      v.artists.Perm ((t.credited v.track.id).map (·.name)) := by
  have ⟨r, _, hv⟩ := List.mem_filterMap.mp h
  have ⟨a, ha, he⟩ := Option.map_eq_some_iff.mp hv
  have ⟨ha, hi⟩ := (album?_eq_some_iff hs).mp ha
  rw [← he]
  exact ⟨⟨a, ha, hi, rfl⟩, (List.mergeSort_perm _ _).trans ((credited_perm hs r.id).map _).symm⟩

end

-- Of the tracks of a user those are listed that pass a test.
theorem mem_found (hs : t.Sound) {u : Int} {p : Track → Bool} :
    r ∈ (((t.tracksOf (.integer u)).filter p).filterMap t.view?).map (·.track) ↔
      r ∈ t.tracks ∧ r.userId = u ∧ p r := by
  show r ∈ (((listed (t.tracks.filter (·.userId = u))).filter p).filterMap t.view?).map (·.track) ↔ _
  simp only [mem_views hs, List.mem_filter, mem_listed, decide_eq_true_eq, and_assoc]
  exact and_congr_right fun hr => and_congr_right fun _ => and_iff_left (hs.albumOf hr)

theorem nodup_found (hs : t.Sound) {u : Int} {p : Track → Bool} :
    ((((t.tracksOf (.integer u)).filter p).filterMap t.view?).map (·.track.id)).Nodup := by
  have hd := List.pairwise_map.mp (nodup_listed (hs.nodup_filter fun r => r.userId = u))
  exact List.pairwise_map.mpr (pairwise_views (hd.filter _))

theorem finds_views (hs : t.Sound) (hp : t.IsPlain) (u : Int) {p : Criteria.Tree}
    {c : Criteria.Condition} (hc : Criteria.Condition.ofTree p = .ok c) :
    t.Finds u p (((t.tracksOf (.integer u)).filter (t.passes c.filter)).filterMap t.view?) := by
  show t.Finds u p
    (((listed (t.tracks.filter (·.userId = u))).filter (t.passes c.filter)).filterMap t.view?)
  constructor
  case tracks =>
    intro r
    refine (mem_found hs).trans ?_
    exact and_congr_right fun hr => and_congr_right fun _ => passes_iff hs hp hr hc
  case once    => exact nodup_found hs
  case ordered => exact pairwise_views ((pairwise_listed (hs.nodup_filter _)).filter _)
  case albums  => exact fun v hv => (of_mem_views hs hv).left
  case artists => exact fun v hv => (of_mem_views hs hv).right

section

variable {user : Datum} {f : Sql.Filter}

theorem find_tooDeep (h : ¬f.test.IsReadable) : t.find user (some f) = .error .tooDeep :=
  if_pos h

theorem find_tooHigh (hr : f.test.IsReadable) (h : ¬f.test.IsLow) :
    t.find user (some f) = .error .tooHigh :=
  (if_neg (not_not_intro hr)).trans (if_pos h)

theorem find_ok (hr : f.test.IsReadable) (hl : f.test.IsLow) :
    t.find user (some f) = .ok (((t.tracksOf user).filter (t.passes f)).filterMap t.view?) :=
  (if_neg (not_not_intro hr)).trans (if_neg (not_not_intro hl))

end

end Tables

namespace Store

open Criteria (Condition Tree compile negated)

variable {s : Store} {now : Moment}

theorem perform_find {user : Datum} {f : Sql.Filter} (hu : Accepts user)
    (hf : ∀ d ∈ f.parameters, Accepts d) :
    (s.perform now (.find user (some f))).1 = (s.tables.find user (some f)).mapError .fault := by
  have hb : Work.bound (user :: filterValues (some f)) s = (.ok (), s) :=
    Work.bound_ok (List.forall_mem_cons.mpr ⟨hu, hf⟩) s
  have hw : work now (.find user (some f)) s = Work.ask (·.find user (some f)) s := Work.bind_ok hb
  unfold perform
  rw [hw, Work.ask]
  cases s.tables.find user (some f) <;> rfl

theorem perform_find_of_compile {u : Int} (hu : Datum.IsStorable u) {text : String} {c : Condition}
    (hc : compile text = .ok c) :
    (s.perform now (.find (.integer u) (some c.filter))).1
      = (s.tables.find (.integer u) (some c.filter)).mapError .fault := by
  have ⟨p, _, ht⟩ := bind_eq_ok_iff.mp hc
  exact perform_find (f := c.filter) (accepts_integer.mpr hu) (Condition.accepts_ofTree p ht)

namespace Sample

def noon : Moment := .ofDay ⟨2024, 1, 1⟩ (12 * 3600 * 1000000) (some 0)

-- A library of a user with an explicit track.
def library : Store :=
  let commands : List Command := [
    .putUser ⟨.text "alice", .null, .text "token", .text "refresh"⟩ noon,
    .addAlbums [⟨.text "album", .text "Album", .null, .text "2020"⟩],
    .addArtists [⟨.text "artist", .text "Artist", (Json.arr []).text⟩],
    .addTrack (.integer 1) ⟨.text "track", .text "Track", .text "album", .text "2024-01-01", true⟩
      [.text "artist"]
  ]
  commands.foldl (fun s c => (s.perform noon c).2) (.create "library")

theorem library_reached : Reached Command.IsPlain library := by
  refine .perform (.perform (.perform (.perform .create ?_) ?_) ?_) ?_
  case refine_1 => trivial
  case refine_2 =>
    exact List.forall_mem_singleton.mpr
      ⟨Datum.isPlain_text (by decide), Datum.isPlain_text (by decide)⟩
  case refine_3 =>
    exact List.forall_mem_singleton.mpr ⟨Datum.isPlain_text (by decide), [], nofun, rfl⟩
  case refine_4 => exact Datum.isPlain_text (by decide)

end Sample

end Store

end LabelPlaylists.Library
