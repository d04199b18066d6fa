import LabelPlaylists.Proofs.Library.Listing
import LabelPlaylists.Proofs.Library.Ownership

namespace LabelPlaylists.Library

namespace Tables

-- The part of the tables that belongs to a user: the user with tracks, labels and playlists, the albums and
-- artists of the tracks, and what ties them together.
def part (t : Tables) (u : Int) : Tables where
  users       := t.users.filter (·.id = u)
  albums      := t.albums.filter fun a => t.tracks.any fun r => r.userId = u && a.id = some r.albumId
  artists     := t.artists.filter fun a => t.credits.any fun c =>
    a.id = some c.artistId && t.tracks.any fun r => r.userId = u && r.id = c.trackId
  tracks      := t.tracks.filter (·.userId = u)
  credits     := t.credits.filter fun c => t.tracks.any fun r => r.userId = u && r.id = c.trackId
  labels      := t.labels.filter (·.userId = u)
  memberships := t.memberships.filter fun m => t.labels.any fun l => l.userId = u && l.id = m.labelId
  playlists   := t.playlists.filter (·.userId = u)

end Tables

-- A row that is added does not count if it is none of those looked for.
theorem filter_concat {rows : List α} {row : α} {p : α → Bool} (h : ¬p row) :
    (rows ++ [row]).filter p = rows.filter p := by
  simp [List.filter_append, h]

-- Rows that are none of those looked for may be changed.
theorem filter_map_if {rows : List α} {p : α → Prop} [DecidablePred p] {f : α → α} {q : α → Bool}
    (h : ∀ a ∈ rows, p a → ¬q a ∧ ¬q (f a)) :
    (rows.map fun a => if p a then f a else a).filter q = rows.filter q := by
  induction rows
  case nil => rfl
  case cons a rest hr =>
    have ⟨ha, h⟩ := List.forall_mem_cons.mp h
    by_cases hp : p a <;> simp_all [List.filter_cons]

theorem filter_filter_of_imp {rows : List α} {p q : α → Bool} (h : ∀ a ∈ rows, q a → p a) :
    (rows.filter p).filter q = rows.filter q := by
  rw [List.filter_filter]
  exact List.filter_congr fun a ha => by cases hq : q a <;> simp_all

-- A user has no row that belongs to another.

theorem Tables.TrackOf.any_eq_false {t : Tables} {u v k : Int} (h : t.TrackOf u k) (hu : u ≠ v) :
    (t.tracks.any fun r => r.userId = v && r.id = k) = false := by
  simpa using fun r hr hv hk => hu ((h r hr hk).symm.trans hv)

theorem Tables.LabelOf.any_eq_false {t : Tables} {u v k : Int} (h : t.LabelOf u k) (hu : u ≠ v) :
    (t.labels.any fun l => l.userId = v && l.id = k) = false := by
  simpa using fun l hl hv hk => hu ((h l hl hk).symm.trans hv)

-- A label stays with its user when its criteria change.
theorem any_changed {labels : List Label} {k n u : Int} {w : Option String} :
    ((labels.map fun l => if l.id = k then { l with criteria := w } else l).any
        fun l => l.userId = u && l.id = n) = labels.any fun l => l.userId = u && l.id = n := by
  rw [List.any_map]
  congr 1
  funext l
  by_cases hl : l.id = k <;> simp [hl]

-- Nothing refers to a row whose key is new.
theorem ne_of_isNew {rows : List α} {key : α → β} {keys : List (Option β)} {k : Option β}
    (hr : (rows.map fun a => some (key a)) ⊆ keys) (hk : k ∉ keys ∨ k = none) :
    ∀ a ∈ rows, k ≠ some (key a) := by
  rintro a ha rfl
  rcases hk with hk | hk
  case inl => exact hk (hr (List.mem_map_of_mem (f := fun a => some (key a)) ha))
  case inr => cases hk

-- An operation in the hands of one user leaves the parts of the others alone.
theorem Command.Effect.part_eq {c : Command} {t t' : Tables} {u : Int} {N : String → Prop} {a : User}
    (hc : c.IsOf u N t) (e : c.Effect t t') (hs : t.Sound) (ha : a ∈ t.users) (hu : u ≠ a.id)
    (hn : ¬N a.spotifyId) : t'.part a.id = t.part a.id := by
  cases e
  case nothing => rfl
  case newUser =>
    have hid := (hs.userNumbers a ha).right
    have hf : t.lastUser + 1 ≠ a.id := by omega
    simp [Tables.part, hf]
  case knownUser hv _ _ _ =>
    have hf {v : User} (hm : v ∈ t.users) (hv : N v.spotifyId) : v.id ≠ a.id := by
      rintro he
      cases List.inj_on_of_nodup_map hs.users hm ha he
      exact hn hv
    simp only [Tables.part]
    rw [filter_map_if fun v hm he => ?_]
    have hi := hf hm (he ▸ hc _ hv)
    simp [hi]
  case tokens hd _ =>
    have hk := hc _ hd ▸ hu
    simp only [Tables.part]
    rw [filter_map_if fun v hm he => ?_]
    simp [he, hk]
  case album hi =>
    have hf := ne_of_isNew hs.trackAlbums hi
    simp only [Tables.part]
    rw [filter_concat]
    simpa using fun r hr _ => hf r hr
  case artist hi =>
    have hf := ne_of_isNew hs.creditArtists hi
    simp only [Tables.part]
    rw [filter_concat]
    simpa using fun c hc he => absurd he (hf c hc)
  case track hd _ _ _ _ _ _ _ =>
    have hk := hc _ hd ▸ hu
    simp [Tables.part, hk]
  case credit ho _ _ _ =>
    have ⟨r, hr, hi, hd⟩ := ho
    have hf := (hi ▸ hc _ hd ▸ hs.trackOf hr).any_eq_false hu
    simp [Tables.part, hf]
  case label hd _ _ _ =>
    have hk := hc _ hd ▸ hu
    simp [Tables.part, hk]
  case criteria hd =>
    simp only [Tables.part, any_changed]
    rw [filter_map_if fun l hl he => ?_]
    simp [hc _ hd l hl he, hu]
  case cleared hd _ =>
    have hf := (hc _ hd).any_eq_false hu
    simp only [Tables.part]
    rw [filter_filter_of_imp fun m _ hm => ?_]
    refine decide_eq_true fun he => ?_
    rw [he, hf] at hm
    cases hm
  case membership hl _ _ _ _ =>
    have hf := (hc.right _ hl).any_eq_false hu
    simp [Tables.part, hf]
  case removed hl _ =>
    have hf := (hc.right _ hl).any_eq_false hu
    simp only [Tables.part]
    rw [filter_filter_of_imp fun m _ hm => ?_]
    refine decide_eq_true fun he => ?_
    rw [he, hf] at hm
    cases hm
  case playlist hd _ _ _ _ _ =>
    have hk := hc.left _ hd ▸ hu
    simp [Tables.part, hk]

-- Rows that are not looked for may be left out.

theorem find?_filter_of_imp {rows : List α} {p q : α → Bool} (h : ∀ a ∈ rows, q a → p a) :
    (rows.filter p).find? q = rows.find? q := by
  rw [← List.head?_filter, ← List.head?_filter, filter_filter_of_imp h]

theorem any_filter_of_imp {rows : List α} {p q : α → Bool} (h : ∀ a ∈ rows, q a → p a) :
    (rows.filter p).any q = rows.any q := by
  rw [Bool.eq_iff_iff, List.any_eq_true, List.any_eq_true]
  simp only [List.mem_filter]
  exact exists_congr fun a => ⟨fun ⟨⟨ha, _⟩, hq⟩ => ⟨ha, hq⟩, fun ⟨ha, hq⟩ => ⟨⟨ha, h a ha hq⟩, hq⟩⟩

namespace Tables

variable {t : Tables} {u : Int} {d : Datum} {r : Track} {l : Label}

theorem user?_part : (t.part u).user? u = t.user? u :=
  find?_filter_of_imp fun _ _ => id

theorem tracksOf_part (hd : d.whole? = some u) : (t.part u).tracksOf d = t.tracksOf d := by
  simp only [tracksOf, hd, part, List.filter_filter, Bool.and_self]

theorem labelsOf_part (hd : d.whole? = some u) : (t.part u).labelsOf d = t.labelsOf d := by
  simp only [labelsOf, hd, part, List.filter_filter, Bool.and_self]

theorem mem_tracksOf (hd : d.whole? = some u) : r ∈ t.tracksOf d ↔ r ∈ t.tracks ∧ r.userId = u := by
  simp [tracksOf, hd, mem_listed]

theorem album?_part (hr : r ∈ t.tracks) : (t.part r.userId).album? r.albumId = t.album? r.albumId := by
  refine find?_filter_of_imp fun a _ ha => List.any_eq_true.mpr ⟨r, hr, ?_⟩
  simpa using ha

theorem artistsOf_part (hr : r ∈ t.tracks) : (t.part r.userId).artistsOf r.id = t.artistsOf r.id := by
  have hc (a : Artist) : ((t.part r.userId).credits.any fun c => c.trackId = r.id && a.id = some c.artistId)
      = t.credits.any fun c => c.trackId = r.id && a.id = some c.artistId := by
    refine any_filter_of_imp fun c _ hc => List.any_eq_true.mpr ⟨r, hr, ?_⟩
    simp_all
  simp only [artistsOf, hc]
  refine filter_filter_of_imp fun a _ ha => ?_
  obtain ⟨c, hc, ha⟩ := List.any_eq_true.mp ha
  refine List.any_eq_true.mpr ⟨c, hc, ?_⟩
  simp_all
  exact ⟨r, hr, rfl, rfl⟩

-- Whether a track carries a label can be seen in the part of the label's user.
theorem contains_part (hl : l ∈ t.labels) {k : Int} :
    (t.part l.userId).memberships.contains ⟨k, l.id⟩ = t.memberships.contains ⟨k, l.id⟩ := by
  rw [Bool.eq_iff_iff, List.contains_iff_mem, List.contains_iff_mem]
  refine List.mem_filter.trans (and_iff_left (List.any_eq_true.mpr ⟨l, hl, ?_⟩))
  simp

theorem staticLabelsOf_part (ho : t.Owned) (hr : r ∈ t.tracks) :
    (t.part r.userId).staticLabelsOf r.id = t.staticLabelsOf r.id := by
  refine (List.filter_filter ..).trans (List.filter_congr fun l hl => ?_)
  by_cases hu : l.userId = r.userId
  case pos => rw [← hu, contains_part hl]; simp
  case neg =>
    have hm : ⟨r.id, l.id⟩ ∉ t.memberships := fun hm => hu (ho.memberships _ hm r hr rfl l hl rfl).symm
    simp [hu, hm]

theorem labelTracks_part (ho : t.Owned) (hl : l ∈ t.labels) (hd : d.whole? = some l.id) :
    (t.part l.userId).labelTracks d = t.labelTracks d := by
  simp only [labelTracks, hd, contains_part hl]
  congr 2
  refine filter_filter_of_imp fun r hr hm => decide_eq_true ?_
  exact ho.memberships _ (List.contains_iff_mem.mp hm) r hr rfl l hl rfl

theorem playlistsOf_part (ho : t.Owned) (hd : d.whole? = some u) :
    (t.part u).playlistsOf d = t.playlistsOf d := by
  simp only [playlistsOf, hd, part, List.filter_filter, Bool.and_self]
  refine List.filterMap_congr fun p hp => ?_
  have ⟨hp, hu⟩ := List.mem_filter.mp hp
  congr 1
  refine find?_filter_of_imp fun l hl he => ?_
  have hlu := ho.playlists p hp l hl (by simpa using he)
  simp_all

theorem view?_part (hr : r ∈ t.tracks) : (t.part r.userId).view? r = t.view? r := by
  rw [view?, view?, album?_part hr, artistsOf_part hr]

theorem passes_part (ho : t.Owned) (hr : r ∈ t.tracks) {f : Sql.Filter} :
    (t.part r.userId).passes f r = t.passes f r := by
  simp only [passes, scope, album?_part hr, artistsOf_part hr, staticLabelsOf_part ho hr]

theorem filterMap_view?_part {tracks : List Track} (h : ∀ r ∈ tracks, r ∈ t.tracks ∧ r.userId = u) :
    tracks.filterMap (t.part u).view? = tracks.filterMap t.view? :=
  List.filterMap_congr fun r hr => (h r hr).right ▸ view?_part (h r hr).left

theorem find_part (ho : t.Owned) (hd : d.whole? = some u) {f : Option Sql.Filter} :
    (t.part u).find d f = t.find d f := by
  have hm : ∀ r ∈ t.tracksOf d, r ∈ t.tracks ∧ r.userId = u := fun r => (mem_tracksOf hd).mp
  cases f
  case none => simp only [find, tracksOf_part hd, filterMap_view?_part hm]
  case some f =>
    have hp : (t.tracksOf d).filter ((t.part u).passes f) = (t.tracksOf d).filter (t.passes f) :=
      List.filter_congr fun r hr => (hm r hr).right ▸ passes_part ho (hm r hr).left
    have hf : ∀ r ∈ (t.tracksOf d).filter (t.passes f), r ∈ t.tracks ∧ r.userId = u :=
      fun r hr => hm r (List.mem_of_mem_filter hr)
    simp only [find, tracksOf_part hd, hp, filterMap_view?_part hf]

theorem trackPage_part (hd : d.whole? = some u) {limit offset : Datum} :
    (t.part u).trackPage d limit offset = t.trackPage d limit offset := by
  have hm : ∀ r ∈ t.tracksOf d, r ∈ t.tracks ∧ r.userId = u := fun r => (mem_tracksOf hd).mp
  simp only [trackPage, tracksOf_part hd, filterMap_view?_part hm]

end Tables

-- Questions about a user, and about the tracks of the user's labels.
inductive Command.IsAbout (t : Tables) (u : Int) : Command → Prop
  | user {d} : d.whole? = some u → IsAbout t u (.user d)
  | tracks {d limit offset} : d.whole? = some u → IsAbout t u (.tracks d limit offset)
  | find {d f} : d.whole? = some u → IsAbout t u (.find d f)
  | labels {d} : d.whole? = some u → IsAbout t u (.labels d)
  | labelTracks {d l} : l ∈ t.labels → l.userId = u → d.whole? = some l.id → IsAbout t u (.labelTracks d)
  | playlists {d} : d.whole? = some u → IsAbout t u (.playlists d)

namespace Store

variable {s s' : Store} {now : Moment} {c : Command} {u : Int}

-- Whether the store takes the values of a question does not depend on what it holds.
theorem fst_perform_of_ask {values : List Datum} {f : Tables → Except Fault c.Reply}
    (hw : work now c = do Work.bound values; Work.ask f) (h : f s'.tables = f s.tables) :
    (s'.perform now c).1 = (s.perform now c).1 := by
  unfold perform
  simp only [hw, bind, Work.bind, Work.bound]
  cases Work.refusal? 1 values
  case some e => cases e <;> rfl
  case none =>
    simp only [Work.ask, h]
    cases f s.tables <;> rfl

-- Questions about a user are answered from the user's part of the tables.
theorem fst_perform_part (ho : s.tables.Owned) (hc : c.IsAbout s.tables u)
    (h : s'.tables = s.tables.part u) : (s'.perform now c).1 = (s.perform now c).1 := by
  cases hc
  case user d hd =>
    refine fst_perform_of_ask (f := fun t => .ok (d.whole?.bind t.user?)) rfl ?_
    rw [h, hd]
    exact congrArg Except.ok Tables.user?_part
  case tracks d limit offset hd =>
    refine fst_perform_of_ask (f := fun t => t.trackPage d limit offset) rfl ?_
    rw [h, Tables.trackPage_part hd]
  case find d f hd =>
    refine fst_perform_of_ask (f := fun t => t.find d f) rfl ?_
    rw [h, Tables.find_part ho hd]
  case labels d hd =>
    refine fst_perform_of_ask (f := fun t => .ok (t.labelsOf d)) rfl ?_
    rw [h, Tables.labelsOf_part hd]
  case labelTracks d l hl hu hd =>
    refine fst_perform_of_ask (f := fun t => .ok (t.labelTracks d)) rfl ?_
    rw [h, ← hu, Tables.labelTracks_part ho hl hd]
  case playlists d hd =>
    refine fst_perform_of_ask (f := fun t => .ok (t.playlistsOf d)) rfl ?_
    rw [h, Tables.playlistsOf_part ho hd]

-- Tables in which the user's part is the same give the same answers.
theorem fst_perform_eq (ho : s.tables.Owned) (ho' : s'.tables.Owned) (hc : c.IsAbout s.tables u)
    (h : s'.tables.part u = s.tables.part u) : (s'.perform now c).1 = (s.perform now c).1 := by
  have hc' : c.IsAbout s'.tables u := by
    cases hc
    case labelTracks l hl hu hd =>
      have hm : l ∈ (s'.tables.part u).labels := h ▸ List.mem_filter.mpr ⟨hl, decide_eq_true hu⟩
      exact .labelTracks (List.mem_of_mem_filter hm) hu hd
    all_goals constructor; assumption
  let shared : Store := { s with tables := s.tables.part u }
  calc (s'.perform now c).1
    _ = (shared.perform now c).1 := (fst_perform_part ho' hc' h.symm).symm
    _ = (s.perform now c).1      := fst_perform_part ho hc rfl

end Store

end LabelPlaylists.Library
