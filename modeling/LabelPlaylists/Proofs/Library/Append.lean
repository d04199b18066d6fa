import LabelPlaylists.Proofs.Library.Effect
import LabelPlaylists.Proofs.Library.Undone

namespace LabelPlaylists.Library

-- What never changes about a user or a label.

def User.origin (u : User) : Int × String × String := (u.id, u.spotifyId, u.createdAt)

def Label.origin (l : Label) : Int × Int × String × String := (l.id, l.userId, l.name, l.createdAt)

-- Rows are only added, behind those that are there. Of these none is changed, but for users in their tokens
-- and for labels in their criteria.
structure Tables.ExtendsTo (t t' : Tables) : Prop where
  albums    : t.albums <+: t'.albums
  artists   : t.artists <+: t'.artists
  tracks    : t.tracks <+: t'.tracks
  credits   : t.credits <+: t'.credits
  playlists : t.playlists <+: t'.playlists
  users     : t.users.map User.origin <+: t'.users.map User.origin
  labels    : t.labels.map Label.origin <+: t'.labels.map Label.origin

namespace Tables.ExtendsTo

variable {t t' t'' : Tables}

theorem refl (t : Tables) : t.ExtendsTo t :=
  ⟨List.prefix_rfl, List.prefix_rfl, List.prefix_rfl, List.prefix_rfl, List.prefix_rfl, List.prefix_rfl,
    List.prefix_rfl⟩

theorem trans (h : t.ExtendsTo t') (h' : t'.ExtendsTo t'') : t.ExtendsTo t'' where
  albums    := h.albums.trans h'.albums
  artists   := h.artists.trans h'.artists
  tracks    := h.tracks.trans h'.tracks
  credits   := h.credits.trans h'.credits
  playlists := h.playlists.trans h'.playlists
  users     := h.users.trans h'.users
  labels    := h.labels.trans h'.labels

end Tables.ExtendsTo

-- Rows that are changed in all but their origin.
theorem prefix_map_if {rows : List α} {p : α → Prop} [DecidablePred p] {f : α → α} {key : α → β}
    (hf : ∀ a, key (f a) = key a) :
    rows.map key <+: (rows.map fun a => if p a then f a else a).map key := by
  rw [map_map_if hf]

theorem prefix_map_append {rows more : List α} {key : α → β} :
    rows.map key <+: (rows ++ more).map key := by
  rw [List.map_append]
  exact List.prefix_append _ _

-- Nothing that an operation does takes a row away, but for memberships.
theorem Command.Effect.extendsTo {c : Command} {t t' : Tables} (e : c.Effect t t') : t.ExtendsTo t' := by
  have h := Tables.ExtendsTo.refl t
  cases e
  case newUser   => exact { h with users := prefix_map_append }
  case knownUser => exact { h with users := prefix_map_if fun _ => rfl }
  case tokens    => exact { h with users := prefix_map_if fun _ => rfl }
  case album     => exact { h with albums := List.prefix_append _ _ }
  case artist    => exact { h with artists := List.prefix_append _ _ }
  case track     => exact { h with tracks := List.prefix_append _ _ }
  case credit    => exact { h with credits := List.prefix_append _ _ }
  case label     => exact { h with labels := prefix_map_append }
  case criteria  => exact { h with labels := prefix_map_if fun _ => rfl }
  case playlist  => exact { h with playlists := List.prefix_append _ _ }
  all_goals exact { h with }

theorem Command.Step.extendsTo {c : Command} {t t₁ t₂ : Tables} (e : c.Step t₁ t₂) (h : t.ExtendsTo t₁) :
    t.ExtendsTo t₂ :=
  h.trans e.effect.extendsTo

namespace Store

variable {s : Store} {now : Moment} {c : Command}

-- What has been saved, and stands in the tables still, stays so.
theorem perform_extendsTo {t : Tables} (ht : t.ExtendsTo s.tables) (hs : t.ExtendsTo s.saved) :
    t.ExtendsTo (s.perform now c).2.tables ∧ t.ExtendsTo (s.perform now c).2.saved :=
  perform_keeps Command.Step.extendsTo ht hs

-- So it does whatever happens to the store later.
theorem after_extendsTo {t : Tables} (ht : t.ExtendsTo s.tables) (hs : t.ExtendsTo s.saved) (events : List Event) :
    t.ExtendsTo (s.after events).tables ∧ t.ExtendsTo (s.after events).saved := by
  induction events generalizing s
  case nil => exact ⟨ht, hs⟩
  case cons e _ hi =>
    cases e
    case perform now c =>
      exact hi (perform_extendsTo ht hs).left (perform_extendsTo ht hs).right
    case reconnect => exact hi hs hs

-- The rows that are saved are among those of the tables.
theorem saved_extendsTo_perform (h : s.saved.ExtendsTo s.tables) :
    (s.perform now c).2.saved.ExtendsTo (s.perform now c).2.tables := by
  have ht : s.saved.ExtendsTo (s.perform now c).2.tables := (perform_extendsTo h (.refl _)).left
  rcases hp : s.perform now c with ⟨e | a, s'⟩ <;> rw [hp] at ht
  case error => exact (perform_error_inv hp).left ▸ ht
  case ok =>
    by_cases hw : c.Writes
    case pos => exact perform_writes hw hp ▸ .refl _
    case neg =>
      have hs : (work now c s).2 = s := still_work hw s
      rw [perform_eq_ok_iff.mp hp] at hs
      exact hs ▸ h

theorem Reached.saved_extendsTo {P : Command → Prop} (h : Reached P s) : s.saved.ExtendsTo s.tables := by
  induction h
  case create        => exact .refl _
  case perform _ _ h => exact saved_extendsTo_perform h
  case reconnect     => exact .refl _

-- An operation loses rows only if the store refuses a statement while there are rows that are not saved.
theorem perform_extendsTo_iff :
    s.tables.ExtendsTo (s.perform now c).2.tables ↔
      ((∃ f, (s.perform now c).1 = .error (.fault f)) → s.tables.ExtendsTo s.saved) := by
  by_cases hf : ∃ f, (s.perform now c).1 = .error (.fault f)
  case neg =>
    refine iff_of_true ?_ fun h => absurd h hf
    exact perform_keeps_tables Command.Step.extendsTo (.refl _) fun f he => hf ⟨f, he⟩
  case pos =>
    have ⟨f, he⟩ := hf
    have hp : s.perform now c = (.error (.fault f), (s.perform now c).2) := Prod.ext he rfl
    have ⟨_, hor⟩ := perform_error_inv hp
    rcases hor with ⟨_, ht⟩ | ⟨hn, _⟩
    case inl => rw [ht, forall_prop_of_true hf]
    case inr => exact absurd ⟨f, rfl⟩ hn

-- A user who is put into the library again keeps the number.
theorem perform_putUser_known (hs : s.tables.Sound) {u : User} (hu : u ∈ s.tables.users) {v : UserValues}
    {m : Moment} {k : Int} {s' : Store} (hv : v.spotifyId.text? = some u.spotifyId)
    (h : s.perform now (.putUser v m) = (.ok k, s')) : k = u.id := by
  have ⟨_, s₁, hn, h₁⟩ := Work.bind_inv (perform_eq_ok_iff.mp h)
  have ⟨_, s₂, hb, h₂⟩ := Work.bind_inv h₁
  have ⟨_, s₃, hc, h₃⟩ := Work.bind_inv h₂
  have ⟨_, s₄, hm, h₄⟩ := Work.bind_inv h₃
  cases hm
  cases h₄
  have hs₁ : s₁ = s := by
    have hs := Work.Still.stamp now s
    rw [hn] at hs
    exact hs
  obtain ⟨hs₂, _⟩ := Work.bound_inv hb
  obtain ⟨t, ht, hs₃⟩ := Work.change_inv hc
  subst hs₁ hs₂ hs₃
  have e : (Command.putUser v m).Effect s₂.tables t := .of_putUser ht
  have ⟨w, hw, ho⟩ := List.mem_map.mp (e.extendsTo.users.subset (List.mem_map_of_mem hu))
  simp only [User.origin, Prod.mk.injEq] at ho
  have hf : t.userNamed? u.spotifyId = some w := by
    have ⟨w', hw'⟩ := Option.isSome_iff_exists.mp
      (Tables.userNamed?_isSome_iff.mpr (List.mem_map.mpr ⟨w, hw, ho.right.left⟩))
    have hm := List.mem_of_find?_eq_some hw'
    have hn : w'.spotifyId = u.spotifyId := by simpa using List.find?_some hw'
    rw [hw', List.inj_on_of_nodup_map (e.sound hs).userNames hm hw (hn.trans ho.right.left.symm)]
  show ((v.spotifyId.text?.bind t.userNamed?).map (·.id)).getD 0 = u.id
  rw [hv, Option.bind_some, hf]
  exact ho.left

end Store

/-! ## Numbers of rows -/

-- So many albums, artists and tracks have been added behind those that are there.
structure Tables.Adds (t t' : Tables) (albums artists tracks : Nat) : Prop where
  albums  : t.albums <+: t'.albums ∧ t'.albums.length = t.albums.length + albums
  artists : t.artists <+: t'.artists ∧ t'.artists.length = t.artists.length + artists
  tracks  : t.tracks <+: t'.tracks ∧ t'.tracks.length = t.tracks.length + tracks

namespace Tables.Adds

variable {t t' t'' : Tables} {a b c n : Nat}

theorem of_eq (ha : t'.albums = t.albums) (hb : t'.artists = t.artists) (hc : t'.tracks = t.tracks) :
    t.Adds t' 0 0 0 := by
  constructor <;> simp [*]

theorem refl (t : Tables) : t.Adds t 0 0 0 := of_eq rfl rfl rfl

theorem trans {a' b' c' : Nat} (h : t.Adds t' a b c) (h' : t'.Adds t'' a' b' c') :
    t.Adds t'' (a + a') (b + b') (c + c') where
  albums  := ⟨h.albums.left.trans h'.albums.left, by rw [h'.albums.right, h.albums.right, Nat.add_assoc]⟩
  artists := ⟨h.artists.left.trans h'.artists.left, by rw [h'.artists.right, h.artists.right, Nat.add_assoc]⟩
  tracks  := ⟨h.tracks.left.trans h'.tracks.left, by rw [h'.tracks.right, h.tracks.right, Nat.add_assoc]⟩

theorem artists_eq (h : t.Adds t' a 0 c) : t'.artists = t.artists :=
  (h.artists.left.eq_of_length h.artists.right.symm).symm

-- The number of rows that a single change touches is the number of rows that it adds.

theorem addAlbum {v : AlbumValues} (e : t.addAlbum v = (t', n)) : t.Adds t' n 0 0 := by
  unfold Tables.addAlbum at e
  split at e
  case h_1 => cases e; exact refl t
  case h_2 =>
    split at e <;> cases e
    case isTrue  => exact refl t
    case isFalse => exact { refl t with albums := ⟨List.prefix_append _ _, List.length_append⟩ }

theorem addArtist {v : ArtistValues} (e : t.addArtist v = (t', n)) : t.Adds t' 0 n 0 := by
  unfold Tables.addArtist at e
  split at e
  case h_1 => cases e; exact refl t
  case h_2 =>
    split at e <;> cases e
    case isTrue  => exact refl t
    case isFalse => exact { refl t with artists := ⟨List.prefix_append _ _, List.length_append⟩ }

theorem addTrack {user : Datum} {v : TrackValues} (e : t.addTrack user v = .ok (t', n)) :
    t.Adds t' 0 0 1 := by
  simp only [Tables.addTrack, bind_eq_ok_iff] at e
  obtain ⟨owner, _, _, _, _, _, _, _, _, _, e⟩ := e
  cases owner <;> try cases e
  case some =>
    dsimp only at e
    split at e <;> try cases e
    case isFalse =>
      split at e <;> cases e
      exact { refl t with tracks := ⟨List.prefix_append _ _, List.length_append⟩ }

theorem addCredit {k : Int} {artist : Datum} (e : t.addCredit k artist = .ok (t', n)) :
    t.Adds t' 0 0 0 := by
  unfold Tables.addCredit at e
  split at e
  case h_1 => cases e; exact refl t
  case h_2 =>
    split at e
    case isTrue => cases e; exact refl t
    case isFalse => split at e <;> cases e; exact of_eq rfl rfl rfl

end Tables.Adds

-- Statements for every item touch as many rows in all as the operation tells.
theorem Work.changeEach_count {values : α → List Datum} {f : α → Tables → Change} {items : List α}
    {k n : Nat} {s s' : Store} {I : Nat → Tables → Prop}
    (hf : ∀ {a t t' k n}, f a t = .ok (t', n) → I k t → I (k + n) t')
    (h : changeEach values f items s = (.ok n, s')) (hi : I k s.tables) : I (k + n) s'.tables := by
  induction items generalizing s k n
  case nil => cases h; exact hi
  case cons a rest hr =>
    have ⟨_, s₁, hb, h⟩ := bind_inv h
    have ⟨m, s₂, hc, h⟩ := bind_inv h
    have ⟨l, s₃, he, h⟩ := bind_inv h
    cases h
    have ⟨t, ht, hs⟩ := change_inv hc
    rw [← Nat.add_assoc]
    refine hr he ?_
    rw [hs]
    exact hf ht ((bound_inv hb).left ▸ hi)

namespace Store

variable {s s' : Store} {now : Moment} {n : Nat}

-- What is counted of an operation is what it has added.

theorem perform_addAlbums_count {vs : List AlbumValues} (h : s.perform now (.addAlbums vs) = (.ok n, s')) :
    s.tables.Adds s'.tables n 0 0 := by
  have h := perform_eq_ok_iff.mp h
  cases vs
  case nil => cases h; exact .refl _
  case cons v vs =>
    have ⟨m, s₁, he, h⟩ := Work.bind_inv h
    cases h
    have hc := Work.changeEach_count (k := 0) (I := fun k t => s.tables.Adds t k 0 0)
      (fun e hi => hi.trans (.addAlbum (Except.ok.inj e))) he (.refl _)
    rwa [Nat.zero_add] at hc

theorem perform_addArtists_count {vs : List ArtistValues}
    (h : s.perform now (.addArtists vs) = (.ok n, s')) : s.tables.Adds s'.tables 0 n 0 := by
  have h := perform_eq_ok_iff.mp h
  cases vs
  case nil => cases h; exact .refl _
  case cons v vs =>
    have ⟨m, s₁, he, h⟩ := Work.bind_inv h
    cases h
    have hc := Work.changeEach_count (k := 0) (I := fun k t => s.tables.Adds t 0 k 0)
      (fun e hi => hi.trans (.addArtist (Except.ok.inj e))) he (.refl _)
    rwa [Nat.zero_add] at hc

theorem perform_addTrack_count {user : Datum} {v : TrackValues} {artists : List Datum} {k : Int}
    (h : s.perform now (.addTrack user v artists) = (.ok k, s')) : s.tables.Adds s'.tables 0 0 1 := by
  have ⟨_, s₁, hb, h₁⟩ := Work.bind_inv (perform_eq_ok_iff.mp h)
  have ⟨_, s₂, hc, h₂⟩ := Work.bind_inv h₁
  have ⟨_, s₃, hd, h₃⟩ := Work.bind_inv h₂
  have ⟨_, s₄, he, h₄⟩ := Work.bind_inv h₃
  cases hd
  cases h₄
  have ⟨t, ht, hs₂⟩ := Work.change_inv hc
  rw [(Work.bound_inv hb).left] at ht
  have htrack : s.tables.Adds s₂.tables 0 0 1 := by
    rw [hs₂]
    exact .addTrack ht
  have hcredits := Work.changeEach_inv (I := fun t => s.tables.Adds t 0 0 1)
    (fun _ e hi => hi.trans (.addCredit e)) he htrack
  exact hcredits

end Store

/-! ## Operations that add tracks -/

-- An operation that adds a track of a user under a Spotify id.
def Command.Adds (u : Int) (x : String) : Command → Prop
  | .addTrack d v _ => d.whole? = some u ∧ v.spotifyId.text? = some x
  | _               => False

def Command.IsAddTrack : Command → Prop
  | .addTrack .. => True
  | _            => False

theorem Command.Adds.isAddTrack {u : Int} {x : String} {c : Command} (h : c.Adds u x) : c.IsAddTrack := by
  cases c <;> first | exact h | trivial

theorem Command.Adds.unique {u : Int} {x y : String} {c : Command} (h : c.Adds u x) (h' : c.Adds u y) :
    x = y := by
  cases c <;> first | exact h.elim | exact Option.some.inj (h.right.symm.trans h'.right)

namespace Command.Effect

variable {c : Command} {t t' : Tables} {u : Int} {x : String}

theorem mem_names (e : c.Effect t t') (h : (u, x) ∈ t'.tracks.map fun r => (r.userId, r.spotifyId)) :
    (u, x) ∈ t.tracks.map (fun r => (r.userId, r.spotifyId)) ∨ c.Adds u x := by
  cases e
  case track hu hs _ _ _ _ _ _ =>
    rw [List.map_append, List.mem_append] at h
    refine h.imp_right fun h => ?_
    simp only [List.map_cons, List.map_nil, List.mem_singleton, Prod.mk.injEq] at h
    exact ⟨h.left ▸ hu, h.right ▸ hs⟩
  all_goals exact .inl h

theorem tracks_eq (e : c.Effect t t') (hc : ¬c.IsAddTrack) :
    t'.tracks = t.tracks ∧ t'.lastTrack = t.lastTrack := by
  cases e
  case track  => exact absurd trivial hc
  case credit => exact absurd trivial hc
  all_goals exact ⟨rfl, rfl⟩

end Command.Effect

namespace Store

variable {s : Store} {m : Moment} {c : Command} {u : Int} {x : String}

-- With nothing unsaved, whatever a single change does to the tables is all that an operation does.

theorem perform_grows (hs : s.saved = s.tables) : s.tables.Grows (s.perform m c).2.tables :=
  (perform_keeps (I := s.tables.Grows) (fun e h => h.trans e.effect.grows) .refl (hs ▸ .refl)).left

theorem perform_mem_names (hs : s.saved = s.tables)
    (h : (u, x) ∈ (s.perform m c).2.tables.tracks.map fun r => (r.userId, r.spotifyId)) :
    (u, x) ∈ s.tables.tracks.map (fun r => (r.userId, r.spotifyId)) ∨ c.Adds u x :=
  (perform_keeps
    (I := fun t => (u, x) ∈ t.tracks.map (fun r => (r.userId, r.spotifyId)) →
      (u, x) ∈ s.tables.tracks.map (fun r => (r.userId, r.spotifyId)) ∨ c.Adds u x)
    (fun e hi h => (e.effect.mem_names h).elim hi .inr) .inl (hs ▸ .inl)).left h

theorem perform_tracks_eq (hs : s.saved = s.tables) (hc : ¬c.IsAddTrack) :
    (s.perform m c).2.tables.tracks = s.tables.tracks ∧
      (s.perform m c).2.tables.lastTrack = s.tables.lastTrack :=
  (perform_keeps (I := fun t => t.tracks = s.tables.tracks ∧ t.lastTrack = s.tables.lastTrack)
    (fun e h => have ⟨ht, hl⟩ := e.effect.tracks_eq hc; ⟨ht.trans h.left, hl.trans h.right⟩)
    ⟨rfl, rfl⟩ (hs ▸ ⟨rfl, rfl⟩)).left

-- A track that the user has is refused, and the store is as it was.
theorem perform_addTrack_again (m : Moment) {id : String} (name album added : String) (explicit : Bool)
    (artists : List Datum) (hs : s.saved = s.tables) (hu : Datum.IsStorable u)
    (h : (u, id) ∈ s.tables.tracks.map fun r => (r.userId, r.spotifyId)) :
    s.perform m (.addTrack (.integer u) ⟨.text id, .text name, .text album, .text added, explicit⟩ artists)
      = (.error (.fault (.notUnique "tracks.user_id, tracks.spotify_id")), s) := by
  have hk := Tables.trackOf?_isSome_iff.mpr h
  have ht : s.tables.addTrack (.integer u) ⟨.text id, .text name, .text album, .text added, explicit⟩
      = .error (.notUnique "tracks.user_id, tracks.spotify_id") := by
    simp [Tables.addTrack, requiredReference, required, Datum.text?, Datum.whole?, bind, Except.bind, hk]
  have hc : Work.change (·.addTrack (.integer u) ⟨.text id, .text name, .text album, .text added, explicit⟩) s
      = (.error (.fault (.notUnique "tracks.user_id, tracks.spotify_id")), s) := by
    simp [Work.change, ht]
  rw [perform, work, Work.bind_ok (Work.bound_ok (by simpa [trackValues]) s), Work.bind_error hc]
  exact congrArg (Prod.mk _) (congrArg (fun tables => { s with tables }) hs)

end Store

end LabelPlaylists.Library
