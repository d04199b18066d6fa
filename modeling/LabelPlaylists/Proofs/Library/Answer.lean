import LabelPlaylists.Proofs.Library.Integrity

namespace LabelPlaylists.Library

-- Values that the store takes in a statement.
def Accepts : Datum → Prop
  | .integer n => Datum.IsStorable n
  | .foreign _ => False
  | _          => True

@[simp]
theorem accepts_text {s : String} : Accepts (.text s) := trivial

@[simp]
theorem accepts_ofOption {s : Option String} : Accepts (.ofOption s) := by
  cases s <;> trivial

@[simp]
theorem accepts_integer {n : Int} : Accepts (.integer n) ↔ Datum.IsStorable n := .rfl

namespace Work

theorem refusal?_eq_none_iff {place : Nat} {values : List Datum} :
    refusal? place values = none ↔ ∀ v ∈ values, Accepts v := by
  induction values generalizing place
  case nil => simp [refusal?]
  case cons v rest hi =>
    cases v <;> simp only [refusal?, List.forall_mem_cons]
    case integer n => split <;> simp_all [Accepts]
    all_goals simp_all [Accepts]

theorem bound_ok {values : List Datum} (h : ∀ v ∈ values, Accepts v) (s : Store) :
    bound values s = (.ok (), s) := by
  simp [bound, refusal?_eq_none_iff.mpr h]

theorem change_ok {f : Tables → Change} {s : Store} {t : Tables} {n : Nat}
    (h : f s.tables = .ok (t, n)) :
    change f s = (.ok n, { s with tables := t, changes := s.changes + n }) := by
  simp [change, h]

theorem bind_ok {w : Work α} {f : α → Work β} {s s' : Store} {a : α} (h : w s = (.ok a, s')) :
    (w >>= f) s = f a s' := by
  show Work.bind w f s = f a s'
  simp [Work.bind, h]

-- Statements that are never refused run for every item.
theorem changeEach_ok {values : α → List Datum} {f : α → Tables → Tables × Nat} {items : List α}
    (h : ∀ a ∈ items, ∀ v ∈ values a, Accepts v) (s : Store) :
    ∃ n s', changeEach values (fun a t => .ok (f a t)) items s = (.ok n, s') ∧
      s'.tables = items.foldl (fun t a => (f a t).1) s.tables := by
  induction items generalizing s
  case nil => exact ⟨0, s, rfl, rfl⟩
  case cons a rest hi =>
    rw [List.forall_mem_cons] at h
    have hc : change (fun t => .ok (f a t)) s = _ := change_ok rfl
    have ⟨m, s', hr, ht⟩ := hi h.right (change (fun t => .ok (f a t)) s).2
    refine ⟨(f a s.tables).2 + m, s', ?_, ht⟩
    rw [changeEach, bind_ok (bound_ok h.left s), bind_ok hc]
    exact bind_ok hr

-- A track is credited to all given artists, if they are there.
theorem changeEach_addCredit {ids : List String} {k : Int} {s : Store} (hk : Datum.IsStorable k)
    (hr : k ∈ s.tables.tracks.map (·.id))
    (ha : ∀ a ∈ ids, some a ∈ s.tables.artists.map (·.id)) :
    ∃ n s', changeEach (fun a => [.integer k, a]) (fun a t => t.addCredit k a) (ids.map .text) s
        = (.ok n, s') ∧
      s'.tables = { s.tables with credits := s'.tables.credits } ∧
      ∀ c, c ∈ s'.tables.credits ↔ c ∈ s.tables.credits ∨ c.trackId = k ∧ c.artistId ∈ ids := by
  induction ids generalizing s
  case nil => exact ⟨0, s, rfl, rfl, by simp⟩
  case cons a rest hi =>
    rw [List.forall_mem_cons] at ha
    rw [List.map_cons, changeEach]
    -- The credit is new or has been there, which makes no difference for the rest.
    obtain ⟨t, n, hc, ht, hm⟩ : ∃ t n, s.tables.addCredit k (.text a) = .ok (t, n) ∧
        t = { s.tables with credits := t.credits } ∧
        ∀ c, c ∈ t.credits ↔ c ∈ s.tables.credits ∨ c = ⟨k, a⟩ := by
      unfold Tables.addCredit
      by_cases h : s.tables.credits.contains ⟨k, a⟩
      case pos =>
        refine ⟨s.tables, 0, by simp_all [Datum.text?], rfl, fun c => ?_⟩
        exact ⟨.inl, fun hc => hc.elim id fun hc => hc ▸ List.contains_iff_mem.mp h⟩
      case neg =>
        have hr := Option.isNone_eq_false_iff.mpr (Tables.track?_isSome_iff.mpr hr)
        have ha := Option.isNone_eq_false_iff.mpr (Tables.artist?_isSome_iff.mpr ha.left)
        exact ⟨_, 1, by simp only [Datum.text?, h, hr, ha]; rfl, rfl, by simp⟩
    obtain ⟨m, s', hr', ht', hm'⟩ := @hi { s with tables := t, changes := s.changes + n }
      (by rw [ht]; exact hr) (by rw [ht]; exact ha.right)
    refine ⟨n + m, s', ?_, ?_, fun c => ?_⟩
    · rw [bind_ok (bound_ok (by simp [hk]) s), bind_ok (change_ok hc), bind_ok hr']; rfl
    · rw [ht', ht]
    · rw [hm', hm]
      cases c
      simp only [Credit.mk.injEq, List.mem_cons]
      grind

end Work

namespace Store

variable {s : Store} {now : Moment}

-- An operation that ends well is not taken back.
theorem perform_ok {c : Command} {a : c.Reply} {s' : Store} (h : work now c s = (.ok a, s')) :
    s.perform now c = (.ok a, s') := by
  simp [perform, h]

theorem perform_knownArtists (now : Moment) (ids : List Datum) (h : ∀ v ∈ ids, Accepts v) :
    s.perform now (.knownArtists ids) = (.ok (s.tables.knownArtists ids), s) :=
  perform_ok <| Work.bind_ok <| Work.bound_ok h s

theorem perform_knownTracks (now : Moment) {user : Datum} (ids : List Datum) (hu : Accepts user)
    (h : ∀ v ∈ ids, Accepts v) :
    s.perform now (.knownTracks user ids) = (.ok (s.tables.knownTracks user ids), s) := by
  apply perform_ok
  by_cases hn : ids = []
  case neg =>
    simp only [work, List.isEmpty_iff, hn, if_false]
    exact Work.bind_ok <| Work.bound_ok (List.forall_mem_cons.mpr ⟨hu, h⟩) s
  case pos =>
    subst hn
    unfold Tables.knownTracks
    split <;> simp [work, sorted] <;> rfl

theorem perform_addAlbums (now : Moment) (albums : List AlbumValues)
    (h : ∀ a ∈ albums, ∀ v ∈ albumValues a, Accepts v) :
    ∃ n s', s.perform now (.addAlbums albums) = (.ok n, s') ∧
      s'.tables = albums.foldl (fun t a => (t.addAlbum a).1) s.tables := by
  cases albums
  case nil => exact ⟨0, s, rfl, rfl⟩
  case cons a rest =>
    have ⟨n, s', hr, ht⟩ := Work.changeEach_ok (f := fun a t => t.addAlbum a) h s
    exact ⟨n, { s' with saved := s'.tables }, perform_ok (Work.bind_ok hr), ht⟩

theorem perform_addArtists (now : Moment) (artists : List ArtistValues)
    (h : ∀ a ∈ artists, ∀ v ∈ artistValues a, Accepts v) :
    ∃ n s', s.perform now (.addArtists artists) = (.ok n, s') ∧
      s'.tables = artists.foldl (fun t a => (t.addArtist a).1) s.tables := by
  cases artists
  case nil => exact ⟨0, s, rfl, rfl⟩
  case cons a rest =>
    have ⟨n, s', hr, ht⟩ := Work.changeEach_ok (f := fun a t => t.addArtist a) h s
    exact ⟨n, { s' with saved := s'.tables }, perform_ok (Work.bind_ok hr), ht⟩

-- A new track of a user with an album and artists that are there.
theorem perform_addTrack (now : Moment) {u : Int} {id : String} (name : String) {album : String}
    (added : String) (explicit : Bool) {artists : List String} (hu : Datum.IsStorable u)
    (hl : Datum.IsStorable (s.tables.lastTrack + 1))
    (hm : u ∈ s.tables.users.map (·.id)) (ha : some album ∈ s.tables.albums.map (·.id))
    (hn : (u, id) ∉ s.tables.tracks.map fun r => (r.userId, r.spotifyId))
    (hc : ∀ a ∈ artists, some a ∈ s.tables.artists.map (·.id)) :
    ∃ s', s.perform now (.addTrack (.integer u)
          ⟨.text id, .text name, .text album, .text added, explicit⟩ (artists.map .text))
        = (.ok (s.tables.lastTrack + 1), s') ∧
      s'.tables = { s.tables with
        tracks    := s.tables.tracks ++ [⟨s.tables.lastTrack + 1, u, id, name, album, added, explicit⟩]
        lastTrack := s.tables.lastTrack + 1
        credits   := s'.tables.credits } ∧
      ∀ c, c ∈ s'.tables.credits ↔
        c ∈ s.tables.credits ∨ c.trackId = s.tables.lastTrack + 1 ∧ c.artistId ∈ artists := by
  have ho := Option.isNone_eq_false_iff.mpr (Tables.user?_isSome_iff.mpr hm)
  have ha := Option.isNone_eq_false_iff.mpr (Tables.album?_isSome_iff.mpr ha)
  have hn : (s.tables.trackOf? u id).isSome = false := by
    simpa using mt Tables.trackOf?_isSome_iff.mp hn
  let row : Track := ⟨s.tables.lastTrack + 1, u, id, name, album, added, explicit⟩
  let t := { s.tables with tracks := s.tables.tracks ++ [row], lastTrack := s.tables.lastTrack + 1 }
  have ht : s.tables.addTrack (.integer u)
      ⟨.text id, .text name, .text album, .text added, explicit⟩ = .ok (t, 1) := by
    simp [Tables.addTrack, requiredReference, required, Datum.text?, Datum.whole?, bind, Except.bind,
      hn, ho, ha, t, row]
  obtain ⟨n, s', hr, ht', hm'⟩ := Work.changeEach_addCredit
    (s := { s with tables := t, changes := s.changes + 1 }) hl (by simp [t, row]) hc
  refine ⟨{ s' with saved := s'.tables }, perform_ok ?_, ht', hm'⟩
  rw [work, Work.bind_ok (Work.bound_ok (by simpa [trackValues]) s), Work.bind_ok (Work.change_ok ht)]
  exact Work.bind_ok hr

-- New tokens change nothing but the row of their user. The time must be within the calendar.
theorem perform_setTokens (now : Moment) {u : Int} (access : String) (expiresAt : Moment)
    (refresh : Option String) (hu : Datum.IsStorable u) :
    (s.perform now (.setTokens (.integer u) (.text access) expiresAt (.ofOption refresh))
        = (.error .timeOutOfRange, s) ∧ ¬now.inUtc.InRange) ∨
    ∃ s', s.perform now (.setTokens (.integer u) (.text access) expiresAt (.ofOption refresh))
        = (.ok (), s') ∧
      ∃ users, s'.tables = { s.tables with users } ∧
        users.map (·.id) = s.tables.users.map (·.id) := by
  by_cases hn : now.inUtc.InRange
  case neg => exact .inl ⟨by simp [perform, work, Work.stamp, hn, bind, Work.bind], hn⟩
  case pos =>
    refine .inr ?_
    have hv : ∀ v ∈ [.text access, .text expiresAt.text, .ofOption refresh, .text now.inUtc.text,
        .integer u], Accepts v := by simp [hu]
    obtain ⟨t, n, ht, users, he, hi⟩ : ∃ t n, s.tables.setTokens (.integer u) (.text access)
          expiresAt.text (.ofOption refresh) now.inUtc.text = .ok (t, n) ∧
        ∃ users, t = { s.tables with users } ∧ users.map (·.id) = s.tables.users.map (·.id) := by
      unfold Tables.setTokens
      split
      case h_1 => exact ⟨s.tables, 0, rfl, s.tables.users, rfl, rfl⟩
      case h_2 =>
        refine ⟨_, 1, rfl, _, rfl, ?_⟩
        rw [List.map_map]
        exact List.map_congr_left fun v _ => by dsimp only [Function.comp]; split <;> rfl
    refine ⟨{ s with saved := t, tables := t, changes := s.changes + n }, perform_ok ?_, users, he, hi⟩
    have hs : Work.stamp now s = (.ok now.inUtc.text, s) := if_pos hn
    rw [work, Work.bind_ok hs,
      Work.bind_ok (Work.bound_ok hv s), Work.bind_ok (Work.change_ok ht)]
    rfl

end Store

end LabelPlaylists.Library
