import LabelPlaylists.Library.Store
import LabelPlaylists.Proofs.Result

namespace LabelPlaylists.Library

theorem required_eq_ok_iff {column s : String} {d : Datum} :
    required column d = .ok s ↔ d.text? = some s := by
  unfold required
  cases d.text? <;> simp

theorem whole?_of_requiredReference {column : String} {d : Datum} {k : Option Int}
    (h : requiredReference column d = .ok k) : d.whole? = k := by
  unfold requiredReference at h
  split at h <;> cases h
  rfl

namespace Tables

variable {t t' : Tables} {n : Nat}

-- A user has the track with this number.
def Has (t : Tables) (user : Datum) (k : Int) : Prop := ∃ r ∈ t.tracks, r.id = k ∧ user.whole? = some r.userId

-- The track that is added is the user's, and it has got the last number.
theorem has_of_addTrack {user : Datum} {v : TrackValues} (e : t.addTrack user v = .ok (t', n)) :
    t'.Has user t'.lastTrack := by
  simp only [addTrack, bind_eq_ok_iff] at e
  obtain ⟨owner, ho, _, _, _, _, _, _, _, _, e⟩ := e
  cases owner <;> try cases e
  case some =>
    dsimp only at e
    split at e <;> try cases e
    case isFalse =>
      split at e <;> cases e
      exact ⟨_, List.mem_append_right _ (List.mem_singleton_self _), rfl, whole?_of_requiredReference ho⟩

theorem tracks_addCredit {k : Int} {a : Datum} (e : t.addCredit k a = .ok (t', n)) : t'.tracks = t.tracks := by
  unfold addCredit at e
  split at e
  case h_1 => cases e; rfl
  case h_2 =>
    split at e
    case isTrue  => cases e; rfl
    case isFalse => split at e <;> cases e; rfl

end Tables

-- The single changes of the tables that an operation may run. An operation runs any number of them,
-- up to its end or up to the first that is refused.
inductive Command.Step : Command → Tables → Tables → Prop
  | putUser {v m} : t.putUser v expiresAt now = .ok (t', n) → Step (.putUser v m) t t'
  | setTokens {u v w m} : t.setTokens u v expiresAt w now = .ok (t', n) → Step (.setTokens u v m w) t t'
  | addAlbum {v vs} : v ∈ vs → Step (.addAlbums vs) t (t.addAlbum v).1
  | addArtist {v vs} : v ∈ vs → Step (.addArtists vs) t (t.addArtist v).1
  | addTrack {u v vs} : t.addTrack u v = .ok (t', n) → Step (.addTrack u v vs) t t'
  | addCredit {u v vs} {k : Int} {a} :
    a ∈ vs → t.Has u k → t.addCredit k a = .ok (t', n) → Step (.addTrack u v vs) t t'
  | addLabel {u v w} : t.addLabel u v w now = .ok (t', n) → Step (.addLabel u v w) t t'
  | setCriteria {l v} : Step (.setCriteria l v) t (t.setCriteria l v).1
  | clearLabel {l v} : v ≠ .null → Step (.setCriteria l v) t (t.clearLabel l).1
  | addMembership {r l} {k : Int} :
    l.whole? = some k → t.addMembership r k = .ok (t', n) → Step (.addMembership r l) t t'
  | removeMembership {r l} {k : Int} :
    l.whole? = some k → Step (.removeMembership r l) t (t.removeMembership r k).1
  | addPlaylist {u l v} : t.addPlaylist u l v = .ok (t', n) → Step (.addPlaylist u l v) t t'

namespace Work

variable {I J : Tables → Prop} {s s' : Store}

-- The parts of an operation that ends well.

theorem bind_inv {w : Work α} {f : α → Work β} {b : β} (h : (w >>= f) s = (.ok b, s')) :
    ∃ a s₁, w s = (.ok a, s₁) ∧ f a s₁ = (.ok b, s') := by
  change Work.bind w f s = _ at h
  unfold Work.bind at h
  split at h
  case h_1 a s₁ hw => exact ⟨a, s₁, hw, h⟩
  case h_2         => cases h

theorem change_inv {f : Tables → Change} {n : Nat} (h : change f s = (.ok n, s')) :
    ∃ t, f s.tables = .ok (t, n) ∧ s' = { s with tables := t, changes := s.changes + n } := by
  unfold change at h
  split at h
  case h_1 hf => cases h; exact ⟨_, hf, rfl⟩
  case h_2    => cases h

-- A part of an operation that keeps what holds of the tables in use, and what holds of those that are
-- saved.
def Keeps (I J : Tables → Prop) (w : Work α) : Prop :=
  ∀ s, I s.tables → J s.saved → I (w s).2.tables ∧ J (w s).2.saved

theorem Keeps.pure (a : α) : Keeps I J (pure a : Work α) :=
  fun _ ht hs => ⟨ht, hs⟩

-- What goes on with an answer may make use of how it has come about.
theorem Keeps.bindOk {w : Work α} {f : α → Work β} (hw : Keeps I J w)
    (hf : ∀ s a s', w s = (.ok a, s') → I s'.tables → J s'.saved →
      I (f a s').2.tables ∧ J (f a s').2.saved) : Keeps I J (w >>= f) := by
  intro s ht hs
  have ⟨ht', hs'⟩ := hw s ht hs
  show I (Work.bind w f s).2.tables ∧ J (Work.bind w f s).2.saved
  unfold Work.bind
  split <;> simp_all
  case h_1 h => exact hf _ _ _ h ht' hs'

theorem Keeps.bind {w : Work α} {f : α → Work β} (hw : Keeps I J w) (hf : ∀ a, Keeps I J (f a)) :
    Keeps I J (w >>= f) :=
  hw.bindOk fun _ a s' _ => hf a s'

theorem Keeps.fail (e : Failure) : Keeps I J (fail e : Work α) :=
  fun _ ht hs => ⟨ht, hs⟩

theorem Keeps.current : Keeps I J current :=
  fun _ ht hs => ⟨ht, hs⟩

theorem Keeps.bound (values : List Datum) : Keeps I J (bound values) := by
  intro s ht hs
  unfold Work.bound
  split <;> exact ⟨ht, hs⟩

theorem Keeps.stamp (now : Moment) : Keeps I J (stamp now) := by
  intro s ht hs
  unfold Work.stamp
  split <;> exact ⟨ht, hs⟩

theorem Keeps.commit (hj : ∀ {t}, I t → J t) : Keeps I J commit :=
  fun _ ht _ => ⟨ht, hj ht⟩

theorem Keeps.ask (f : Tables → Except Fault α) : Keeps I J (ask f) := by
  intro s ht hs
  unfold Work.ask
  split <;> exact ⟨ht, hs⟩

theorem Keeps.change {f : Tables → Change} (hf : ∀ {t t' n}, f t = .ok (t', n) → I t → I t') :
    Keeps I J (change f) := by
  intro s ht hs
  unfold Work.change
  split
  case h_1 h => exact ⟨hf h ht, hs⟩
  case h_2   => exact ⟨ht, hs⟩

-- A change that is never refused.
theorem Keeps.changeSurely {f : Tables → Tables × Nat} (hf : ∀ {t}, I t → I (f t).1) :
    Keeps I J (Work.change fun t => .ok (f t)) :=
  fun _ ht hs => ⟨hf ht, hs⟩

theorem Keeps.changeEach {values : α → List Datum} {f : α → Tables → Change} {items : List α}
    (hf : ∀ {a t t' n}, a ∈ items → f a t = .ok (t', n) → I t → I t') :
    Keeps I J (changeEach values f items) := by
  induction items
  case nil => exact .pure 0
  case cons a rest hi =>
    have hr := hi fun hm => hf (List.mem_cons_of_mem _ hm)
    have ha : Keeps I J (Work.change (f a)) := .change (hf List.mem_cons_self)
    exact .bind (.bound _) fun _ => .bind ha fun _ => .bind hr fun _ => .pure _

end Work

namespace Store

variable {I J : Tables → Prop} {c : Command}

open Work in
theorem staticLabel_keeps (id : Datum) : Keeps I J (staticLabel id) := by
  refine .bind (.bound _) fun _ => .bind .current fun t => ?_
  cases id.whole?.bind t.label?
  case none   => exact .fail _
  case some l => by_cases h : l.criteria.isSome <;> simp [h] <;> first | exact .fail _ | exact .pure _

-- A label is answered by its own number.
theorem whole?_of_staticLabel {s s' : Store} {id : Datum} {k : Int} (h : staticLabel id s = (.ok k, s')) :
    id.whole? = some k := by
  have ⟨_, s₁, _, h⟩ := Work.bind_inv h
  have ⟨t, s₂, _, h⟩ := Work.bind_inv h
  cases hl : id.whole?.bind t.label? <;> simp only [hl] at h
  case none => cases h
  case some l =>
    split at h <;> cases h
    have ⟨k, hk, hl⟩ := Option.bind_eq_some_iff.mp hl
    have hi : l.id = k := by simpa using List.find?_some hl
    exact hi ▸ hk

-- What every single change of an operation keeps, the operation keeps.
open Work in
theorem work_keeps (now : Moment) (hj : ∀ {t}, I t → J t) (hc : ∀ {t t'}, c.Step t t' → I t → I t') :
    Keeps I J (work now c) := by
  cases c <;> simp only [work]
  case putUser v expiresAt =>
    refine .bind (.stamp _) fun _ => .bind (.bound _) fun _ => ?_
    refine .bind (.change fun h => hc (.putUser h)) fun _ => .bind (.commit hj) fun _ => ?_
    exact .bind .current fun _ => .pure _
  case setTokens user access expiresAt refresh =>
    refine .bind (.stamp _) fun _ => .bind (.bound _) fun _ => ?_
    exact .bind (.change fun h => hc (.setTokens h)) fun _ => .commit hj
  case addAlbums albums =>
    split
    case isTrue  => exact .pure _
    case isFalse =>
      refine .bind (.changeEach ?_) fun _ => .bind (.commit hj) fun _ => .pure _
      intro v t t' n hm h ht
      exact (Except.ok.inj h ▸ hc (.addAlbum hm) ht : I (t', n).1)
  case addArtists artists =>
    split
    case isTrue  => exact .pure _
    case isFalse =>
      refine .bind (.changeEach ?_) fun _ => .bind (.commit hj) fun _ => .pure _
      intro v t t' n hm h ht
      exact (Except.ok.inj h ▸ hc (.addArtist hm) ht : I (t', n).1)
  case knownTracks user ids =>
    split
    case isTrue  => exact .pure _
    case isFalse => exact .bind (.bound _) fun _ => .bind .current fun _ => .pure _
  case addTrack user track artists =>
    refine .bind (.bound _) fun _ => .bindOk (.change fun h => hc (.addTrack h)) fun s n s' h ht hs => ?_
    -- The credits are those of the track that has just been added.
    have ho : s'.tables.Has user s'.tables.lastTrack := by
      have ⟨t, h, hs⟩ := change_inv h
      rw [hs]
      exact Tables.has_of_addTrack h
    have hw : Keeps (fun t => I t ∧ t.Has user s'.tables.lastTrack) J
        (changeEach (fun a => [.integer s'.tables.lastTrack, a])
          (fun a t => t.addCredit s'.tables.lastTrack a) artists >>= fun _ => commit >>= fun _ =>
            Pure.pure s'.tables.lastTrack) := by
      refine .bind (.changeEach fun hm h ⟨ht, ho⟩ => ⟨hc (.addCredit hm ho h) ht, ?_⟩) fun _ => ?_
      case refine_1 => rwa [Tables.Has, Tables.tracks_addCredit h]
      case refine_2 => exact .bind (.commit fun h => hj h.left) fun _ => .pure _
    exact (hw s' ⟨ht, ho⟩ hs).imp_left And.left
  case addLabel user name criteria =>
    refine .bind (.stamp _) fun _ => .bind (.bound _) fun _ => ?_
    refine .bind (.change fun h => hc (.addLabel h)) fun _ => .bind (.commit hj) fun _ => ?_
    exact .bind .current fun _ => .pure _
  case setCriteria label criteria =>
    refine .bind (.bound _) fun _ => .bind (.changeSurely (hc .setCriteria)) fun _ => ?_
    split
    case isTrue h => exact .bind (.changeSurely (hc (.clearLabel h))) fun _ => .commit hj
    case isFalse  => exact .commit hj
  case addMembership track label =>
    refine .bindOk (staticLabel_keeps _) fun s k s' h => Keeps.bind (.bound _) (fun _ => ?_) s'
    exact .bind (.change fun e => hc (.addMembership (whole?_of_staticLabel h) e)) fun _ => .commit hj
  case removeMembership track label =>
    refine .bindOk (staticLabel_keeps _) fun s k s' h => Keeps.bind (.bound _) (fun _ => ?_) s'
    exact .bind (.changeSurely (hc (.removeMembership (whole?_of_staticLabel h)))) fun _ => .commit hj
  case addPlaylist user label spotifyId =>
    refine .bind (.bound _) fun _ => .bind (.change fun h => hc (.addPlaylist h)) fun _ => ?_
    exact .bind (.commit hj) fun _ => .bind .current fun _ => .pure _
  case users   => exact .bind .current fun _ => .pure _
  case changes => exact fun _ ht hs => ⟨ht, hs⟩
  case tracks  => exact .bind (.bound _) fun _ => .ask _
  case find    => exact .bind (.bound _) fun _ => .ask _
  all_goals exact .bind (.bound _) fun _ => .bind .current fun _ => .pure _

theorem perform_keeps {s : Store} (hc : ∀ {t t'}, c.Step t t' → I t → I t')
    (ht : I s.tables) (hs : I s.saved) :
    I (s.perform now c).2.tables ∧ I (s.perform now c).2.saved := by
  have ⟨ht', hs'⟩ := work_keeps now id hc s ht hs
  unfold perform
  split
  case h_1 h => rw [h] at hs'; exact ⟨hs', hs'⟩
  case h_2   => exact ⟨ht', hs'⟩

-- What has been changed is lost only if the store refuses a statement.
theorem perform_keeps_tables {s : Store} (hc : ∀ {t t'}, c.Step t t' → I t → I t') (ht : I s.tables)
    (hf : ∀ f, (s.perform now c).1 ≠ .error (.fault f)) : I (s.perform now c).2.tables := by
  have ⟨ht', _⟩ := work_keeps (J := fun _ => True) now (fun _ => trivial) hc s ht trivial
  unfold perform at hf ⊢
  split at hf
  case h_1 => exact absurd rfl (hf _)
  case h_2 => exact ht'

-- The stores that operations lead to, all of which are of the given kind. A store may be closed and
-- opened again at any time.
inductive Reached (P : Command → Prop) : Store → Prop
  | create {path} : Reached P (.create path)
  | perform {s now c} : Reached P s → P c → Reached P (s.perform now c).2
  | reconnect {s} : Reached P s → Reached P s.reconnect

-- What holds of empty tables and is kept by every single change holds of all stores that are reached.
theorem Reached.invariant {P : Command → Prop} {s : Store}
    (h₀ : I { version := some layoutVersion })
    (hc : ∀ {c t t'}, P c → c.Step t t' → I t → I t') (h : Reached P s) :
    I s.tables ∧ I s.saved := by
  induction h
  case create            => exact ⟨h₀, h₀⟩
  case perform c _ hp hi => exact perform_keeps (hc hp) hi.left hi.right
  case reconnect hi      => exact ⟨hi.right, hi.right⟩

end Store

end LabelPlaylists.Library
