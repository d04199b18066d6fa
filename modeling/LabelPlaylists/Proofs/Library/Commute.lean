import LabelPlaylists.Proofs.Library.Undone

namespace LabelPlaylists.Library

-- One part of the tables, and how to put another one in its place.
structure Tables.Place (β : Type) where
  get     : Tables → β
  set     : Tables → β → Tables
  get_set : ∀ t b, get (set t b) = b
  set_set : ∀ t b b', set (set t b) b' = set t b'
  set_get : ∀ t, set t (get t) = t

namespace Tables.Place

variable {β γ : Type}

def users : Place (List User) where
  get         := Tables.users
  set t users := { t with users }
  get_set _ _ := rfl
  set_set _ _ _ := rfl
  set_get _   := rfl

def albums : Place (List Album) where
  get          := Tables.albums
  set t albums := { t with albums }
  get_set _ _  := rfl
  set_set _ _ _ := rfl
  set_get _    := rfl

def artists : Place (List Artist) where
  get           := Tables.artists
  set t artists := { t with artists }
  get_set _ _   := rfl
  set_set _ _ _ := rfl
  set_get _     := rfl

-- What is put in one of two places is not seen in the other one.
structure Apart (p : Place β) (q : Place γ) : Prop where
  left  : ∀ t c, p.get (q.set t c) = p.get t
  right : ∀ t b, q.get (p.set t b) = q.get t
  both  : ∀ t b c, p.set (q.set t c) b = q.set (p.set t b) c

theorem albums_apart_users : albums.Apart users := ⟨fun _ _ => rfl, fun _ _ => rfl, fun _ _ _ => rfl⟩

theorem albums_apart_artists : albums.Apart artists := ⟨fun _ _ => rfl, fun _ _ => rfl, fun _ _ _ => rfl⟩

end Tables.Place

open Tables (Place)

variable {β γ : Type} {p : Place β} {q : Place γ} {m n : Moment} {c d : Command}

-- Puts something in a place for good, by so many changes.
def Store.put (p : Place β) (s : Store) : Option (β × Nat) → Store
  | none        => s
  | some (b, n) =>
    { s with saved := p.set s.tables b, tables := p.set s.tables b, changes := s.changes + n }

-- An operation that sees one place only. It leaves all as it is, or it puts something in that place for good.
def Command.StaysIn (p : Place β) (m : Moment) (c : Command) : Prop :=
  ∃ f : β → Except Failure c.Reply × Option (β × Nat), ∀ s : Store,
    s.perform m c = ((f (p.get s.tables)).1, s.put p (f (p.get s.tables)).2)

namespace Store

theorem get_put (h : p.Apart q) (s : Store) (o : Option (γ × Nat)) : p.get (s.put q o).tables = p.get s.tables := by
  cases o
  case none   => rfl
  case some o => exact h.left _ _

theorem put_put (h : p.Apart q) (s : Store) (o : Option (β × Nat)) (o' : Option (γ × Nat)) :
    (s.put p o).put q o' = (s.put q o').put p o := by
  rcases o with _ | ⟨b, n⟩ <;> rcases o' with _ | ⟨c, n'⟩ <;> try rfl
  simp only [put, h.both, Nat.add_right_comm s.changes n n']

end Store

theorem Tables.Place.Apart.symm (h : p.Apart q) : q.Apart p := ⟨h.right, h.left, fun t b c => (h.both t c b).symm⟩

-- Statements for every item that see one place only do so together.
theorem Work.changeEach_place {values : α → List Datum} {f : α → Tables → Tables × Nat} {g : α → β → β × Nat}
    (hf : ∀ a t, f a t = (p.set t (g a (p.get t)).1, (g a (p.get t)).2)) {items : List α}
    (hv : ∀ a ∈ items, ∀ v ∈ values a, Accepts v) :
    ∃ h : β → β × Nat, ∀ s : Store, changeEach values (fun a t => .ok (f a t)) items s
      = (.ok (h (p.get s.tables)).2,
          { s with
            tables  := p.set s.tables (h (p.get s.tables)).1
            changes := s.changes + (h (p.get s.tables)).2 }) := by
  induction items
  case nil => exact ⟨fun b => (b, 0), fun s => by rw [p.set_get]; rfl⟩
  case cons a rest hi =>
    have ⟨hva, hv⟩ := List.forall_mem_cons.mp hv
    obtain ⟨h, hi⟩ := hi hv
    refine ⟨fun b => ((h (g a b).1).1, (g a b).2 + (h (g a b).1).2), fun s => ?_⟩
    rw [changeEach, bind_ok (bound_ok hva s), bind_ok (change_ok (congrArg Except.ok (hf a s.tables))),
      bind_ok (hi _)]
    simp only [p.get_set, p.set_set, Nat.add_assoc]
    rfl

namespace Tables

-- Of all tables, single changes see the one that they change.

theorem addAlbum_eq (t : Tables) (v : AlbumValues) :
    t.addAlbum v = (Place.albums.set t (({ albums := t.albums } : Tables).addAlbum v).1.albums,
      (({ albums := t.albums } : Tables).addAlbum v).2) := by
  unfold Tables.addAlbum Place.albums
  cases v.name.text?
  case none      => rfl
  case some name =>
    by_cases h : v.id.text?.isSome ∧ t.albums.any (·.id = v.id.text?)
    case pos => simp only [h, and_self, if_true]
    case neg => simp only [h, if_false]

theorem addArtist_eq (t : Tables) (v : ArtistValues) :
    t.addArtist v = (Place.artists.set t (({ artists := t.artists } : Tables).addArtist v).1.artists,
      (({ artists := t.artists } : Tables).addArtist v).2) := by
  unfold Tables.addArtist Place.artists
  cases v.name.text?
  case none      => rfl
  case some name =>
    by_cases h : v.id.text?.isSome ∧ t.artists.any (·.id = v.id.text?)
    case pos => simp only [h, and_self, if_true]
    case neg => simp only [h, if_false]

theorem setTokens_eq (u : Int) (access expiresAt now : String) (refresh : Option String) :
    ∃ f : List User → List User × Nat, ∀ t : Tables,
      t.setTokens (.integer u) (.text access) expiresAt (.ofOption refresh) now
        = .ok (Place.users.set t (f t.users).1, (f t.users).2) := by
  refine ⟨fun rows =>
    let changed := ({ users := rows } : Tables).setTokens (.integer u) (.text access) expiresAt (.ofOption refresh) now
    (changed.toOption.map fun r => (r.1.users, r.2)).getD (rows, 0), fun t => ?_⟩
  cases hf : t.users.find? (·.id = u)
  case none   => simp [Tables.setTokens, user?, hf, Datum.whole?, Place.users, Except.toOption]
  case some v =>
    simp [Tables.setTokens, user?, hf, Datum.whole?, Place.users, required, Datum.text?, bind, Except.bind,
      Except.toOption]

end Tables

namespace Command.StaysIn

-- An operation that leaves the store as it is.
theorem of_look {r : β → Except Failure c.Reply} (h : ∀ s : Store, s.perform m c = (r (p.get s.tables), s)) :
    c.StaysIn p m :=
  ⟨fun b => (r b, none), h⟩

theorem addAlbums {vs : List AlbumValues} (hv : ∀ v ∈ vs, ∀ d ∈ Store.albumValues v, Accepts d) :
    (Command.addAlbums vs).StaysIn .albums m := by
  cases vs
  case nil => exact of_look (r := fun _ => .ok 0) fun _ => rfl
  case cons v vs =>
    obtain ⟨h, hh⟩ := Work.changeEach_place (p := .albums) (g := fun v rows =>
      ((({ albums := rows } : Tables).addAlbum v).1.albums, (({ albums := rows } : Tables).addAlbum v).2))
      (fun v t => t.addAlbum_eq v) hv
    refine ⟨fun rows => (.ok (h rows).2, some (h rows)), fun s => Store.perform_ok ?_⟩
    rw [Store.work, List.isEmpty_cons, if_neg Bool.false_ne_true, Work.bind_ok (hh s)]
    rfl

theorem addArtists {vs : List ArtistValues} (hv : ∀ v ∈ vs, ∀ d ∈ Store.artistValues v, Accepts d) :
    (Command.addArtists vs).StaysIn .artists m := by
  cases vs
  case nil => exact of_look (r := fun _ => .ok 0) fun _ => rfl
  case cons v vs =>
    obtain ⟨h, hh⟩ := Work.changeEach_place (p := .artists) (g := fun v rows =>
      ((({ artists := rows } : Tables).addArtist v).1.artists, (({ artists := rows } : Tables).addArtist v).2))
      (fun v t => t.addArtist_eq v) hv
    refine ⟨fun rows => (.ok (h rows).2, some (h rows)), fun s => Store.perform_ok ?_⟩
    rw [Store.work, List.isEmpty_cons, if_neg Bool.false_ne_true, Work.bind_ok (hh s)]
    rfl

theorem knownArtists {ids : List Datum} (hv : ∀ d ∈ ids, Accepts d) : (Command.knownArtists ids).StaysIn .artists m :=
  of_look (r := fun rows => .ok (({ artists := rows } : Tables).knownArtists ids)) fun s =>
    s.perform_knownArtists m ids hv

-- New tokens are refused for reasons that have nothing to do with what is in the library.
theorem setTokens {u : Int} {access : String} {e : Moment} {refresh : Option String} :
    (Command.setTokens (.integer u) (.text access) e (.ofOption refresh)).StaysIn .users m := by
  by_cases hm : m.inUtc.InRange
  case neg =>
    refine of_look (r := fun _ => .error .timeOutOfRange) fun s => ?_
    simp [Store.perform, Store.work, Work.stamp, hm, bind, Work.bind]
  case pos =>
    have hs (s : Store) : Work.stamp m s = (.ok m.inUtc.text, s) := if_pos hm
    by_cases hu : Datum.IsStorable u
    case neg =>
      refine of_look (r := fun _ => .error .numberTooLarge) fun s => ?_
      have hb : Work.bound [.text access, .text e.text, .ofOption refresh, .text m.inUtc.text, .integer u] s
          = (.error .numberTooLarge, s) := by
        cases refresh <;> simp [Work.bound, Work.refusal?, Datum.ofOption, hu]
      rw [Store.perform, Store.work, Work.bind_ok (hs s), Work.bind_error hb]
    case pos =>
      have hv : ∀ v ∈ [.text access, .text e.text, .ofOption refresh, .text m.inUtc.text, .integer u], Accepts v := by
        simp [hu]
      obtain ⟨f, hf⟩ := Tables.setTokens_eq u access e.text m.inUtc.text refresh
      refine ⟨fun rows => (.ok (), some (f rows)), fun s => Store.perform_ok ?_⟩
      rw [Store.work, Work.bind_ok (hs s), Work.bind_ok (Work.bound_ok hv s),
        Work.bind_ok (Work.change_ok (hf s.tables))]
      rfl

theorem tracks (hc : c.StaysIn p m) (hp : ∀ t b, (p.set t b).tracks = t.tracks) (s : Store) :
    (s.perform m c).2.tables.tracks = s.tables.tracks := by
  obtain ⟨f, hf⟩ := hc
  rw [hf]
  rcases (f (p.get s.tables)).2 with _ | ⟨b, k⟩
  case none => rfl
  case some => exact hp _ b

-- Operations that stay in different places do not notice each other, and their order makes no difference.
theorem commute (hc : c.StaysIn p m) (hd : d.StaysIn q n) (h : p.Apart q) (s : Store) :
    ((s.perform n d).2.perform m c).1 = (s.perform m c).1 ∧
    ((s.perform m c).2.perform n d).1 = (s.perform n d).1 ∧
    ((s.perform m c).2.perform n d).2 = ((s.perform n d).2.perform m c).2 := by
  obtain ⟨f, hf⟩ := hc
  obtain ⟨g, hg⟩ := hd
  simp only [hf, hg, Store.get_put h, Store.get_put h.symm]
  exact ⟨trivial, trivial, Store.put_put h _ _ _⟩

end Command.StaysIn

end LabelPlaylists.Library
