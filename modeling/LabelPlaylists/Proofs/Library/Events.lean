import LabelPlaylists.Proofs.Library.Orderly

namespace LabelPlaylists.Library

-- Stores with the same tables, both in use and saved.
structure Store.Agrees (s s' : Store) : Prop where
  tables : s'.tables = s.tables
  saved  : s'.saved = s.saved

namespace Work

variable {w : Work α} {f : α → Work β}

-- A part of an operation that does the same in stores that agree.
def Steady (w : Work α) : Prop :=
  ∀ s s', s.Agrees s' → (w s').1 = (w s).1 ∧ (w s).2.Agrees (w s').2

theorem Steady.pure (a : α) : Steady (pure a : Work α) := fun _ _ h => ⟨rfl, h⟩

theorem Steady.fail (e : Failure) : Steady (fail e : Work α) := fun _ _ h => ⟨rfl, h⟩

theorem Steady.current : Steady current := fun _ _ h => ⟨congrArg Except.ok h.tables, h⟩

theorem Steady.commit : Steady commit := fun _ _ h => ⟨rfl, h.tables, h.tables⟩

theorem Steady.bind (hw : Steady w) (hf : ∀ a, Steady (f a)) : Steady (w >>= f) := by
  intro s s' h
  have ⟨ha, hs⟩ := hw s s' h
  rcases hw₁ : w s with ⟨_ | a, s₁⟩ <;> rcases hw₂ : w s' with ⟨_ | a', s₂⟩ <;> simp_all
  case error.error =>
    simp [Bind.bind, Work.bind, hw₁, hw₂, hs]
  case ok.ok =>
    rw [bind_ok hw₁, bind_ok hw₂]
    exact hf a s₁ s₂ hs

theorem Steady.bound (values : List Datum) : Steady (bound values) := by
  intro s s' h
  unfold Work.bound
  cases refusal? 1 values <;> exact ⟨rfl, h⟩

theorem Steady.stamp (now : Moment) : Steady (stamp now) := by
  intro s s' h
  unfold Work.stamp
  split <;> exact ⟨rfl, h⟩

theorem Steady.change (f : Tables → Change) : Steady (change f) := by
  intro s s' h
  unfold Work.change
  rw [h.tables]
  cases f s.tables
  case error => exact ⟨rfl, h⟩
  case ok    => exact ⟨rfl, rfl, h.saved⟩

theorem Steady.ask (f : Tables → Except Fault α) : Steady (ask f) := by
  intro s s' h
  unfold Work.ask
  rw [h.tables]
  cases f s.tables <;> exact ⟨rfl, h⟩

theorem Steady.changeEach (values : α → List Datum) (f : α → Tables → Change) (items : List α) :
    Steady (changeEach values f items) := by
  induction items
  case nil => exact .pure 0
  case cons a rest hi =>
    exact (Steady.bound _).bind fun _ => (Steady.change _).bind fun _ => hi.bind fun _ => .pure _

end Work

namespace Store

open Work (Steady)

variable {s s' : Store} {now : Moment} {c : Command}

theorem steady_staticLabel (id : Datum) : Steady (staticLabel id) := by
  refine (Steady.bound _).bind fun _ => Steady.current.bind fun t => ?_
  split
  case h_1 => exact .fail _
  case h_2 =>
    split
    case isTrue  => exact .fail _
    case isFalse => exact .pure _

-- What an operation answers and does depends on the tables, both in use and saved. Only the number of
-- changes so far does not.
theorem steady_work (now : Moment) (hc : c ≠ .changes) : Steady (work now c) := by
  cases c <;> simp only [work]
  case changes => exact absurd rfl hc
  case putUser =>
    refine (Steady.stamp _).bind fun _ => (Steady.bound _).bind fun _ => (Steady.change _).bind fun _ => ?_
    exact Steady.commit.bind fun _ => Steady.current.bind fun _ => .pure _
  case setTokens =>
    refine (Steady.stamp _).bind fun _ => (Steady.bound _).bind fun _ => ?_
    exact (Steady.change _).bind fun _ => .commit
  case addAlbums =>
    split
    case isTrue  => exact .pure _
    case isFalse => exact (Steady.changeEach _ _ _).bind fun _ => Steady.commit.bind fun _ => .pure _
  case addArtists =>
    split
    case isTrue  => exact .pure _
    case isFalse => exact (Steady.changeEach _ _ _).bind fun _ => Steady.commit.bind fun _ => .pure _
  case knownTracks =>
    split
    case isTrue  => exact .pure _
    case isFalse => exact (Steady.bound _).bind fun _ => Steady.current.bind fun _ => .pure _
  case addTrack =>
    refine (Steady.bound _).bind fun _ => (Steady.change _).bind fun _ => Steady.current.bind fun _ => ?_
    exact (Steady.changeEach _ _ _).bind fun _ => Steady.commit.bind fun _ => .pure _
  case addLabel =>
    refine (Steady.stamp _).bind fun _ => (Steady.bound _).bind fun _ => (Steady.change _).bind fun _ => ?_
    exact Steady.commit.bind fun _ => Steady.current.bind fun _ => .pure _
  case setCriteria =>
    refine (Steady.bound _).bind fun _ => (Steady.change _).bind fun _ => ?_
    split
    case isTrue  => exact (Steady.change _).bind fun _ => .commit
    case isFalse => exact .commit
  case addMembership =>
    refine (steady_staticLabel _).bind fun _ => (Steady.bound _).bind fun _ => ?_
    exact (Steady.change _).bind fun _ => .commit
  case removeMembership =>
    refine (steady_staticLabel _).bind fun _ => (Steady.bound _).bind fun _ => ?_
    exact (Steady.change _).bind fun _ => .commit
  case addPlaylist =>
    refine (Steady.bound _).bind fun _ => (Steady.change _).bind fun _ => Steady.commit.bind fun _ => ?_
    exact Steady.current.bind fun _ => .pure _
  case users  => exact Steady.current.bind fun _ => .pure _
  case tracks => exact (Steady.bound _).bind fun _ => .ask _
  case find   => exact (Steady.bound _).bind fun _ => .ask _
  all_goals exact (Steady.bound _).bind fun _ => Steady.current.bind fun _ => .pure _

theorem Agrees.perform (h : s.Agrees s') : (s.perform now c).2.Agrees (s'.perform now c).2 := by
  by_cases hc : c = .changes
  case pos => exact hc ▸ h
  case neg =>
    have ⟨ha, hs⟩ := steady_work now hc s s' h
    unfold Store.perform
    rcases hw : work now c s with ⟨_ | a, s₁⟩ <;> rcases hw' : work now c s' with ⟨_ | a', s₂⟩ <;>
      rw [hw, hw'] at ha hs <;> cases ha
    case ok.ok        => exact hs
    case error.error e =>
      cases e
      case fault => exact ⟨hs.saved, hs.saved⟩
      all_goals exact hs

-- What happens to a store: an operation is performed at a time, or the library is closed and opened
-- again.
inductive Event where
  | perform (now : Moment) (c : Command)
  | reconnect

def follow (s : Store) : Event → Store
  | .perform now c => (s.perform now c).2
  | .reconnect     => s.reconnect

-- The store after events, the first one first.
def after (s : Store) (events : List Event) : Store := events.foldl follow s

theorem Agrees.follow (h : s.Agrees s') {e : Event} : (s.follow e).Agrees (s'.follow e) := by
  cases e
  case perform   => exact h.perform
  case reconnect => exact ⟨h.saved, h.saved⟩

-- Stores that agree cannot be told apart by what happens to them later.
theorem Agrees.after (h : s.Agrees s') (events : List Event) :
    (s.after events).Agrees (s'.after events) := by
  induction events generalizing s s'
  case nil         => exact h
  case cons e _ hi => exact hi h.follow

theorem Reached.mono {P Q : Command → Prop} (h : Reached P s) (hp : ∀ c, P c → Q c) :
    Reached Q s := by
  induction h
  case create          => exact .create
  case perform hc hi   => exact .perform hi (hp _ hc)
  case reconnect hi    => exact .reconnect hi

-- An event of which the operation, if it is one, is of the given kind.
def Event.Meets (P : Command → Prop) : Event → Prop
  | .perform _ c => P c
  | .reconnect   => True

theorem Reached.after {P : Command → Prop} (h : Reached P s) {events : List Event}
    (he : ∀ e ∈ events, e.Meets P) : Reached P (s.after events) := by
  induction events generalizing s
  case nil => exact h
  case cons e rest hi =>
    have ⟨hp, hr⟩ := List.forall_mem_cons.mp he
    refine hi ?_ hr
    cases e
    case perform   => exact h.perform hp
    case reconnect => exact h.reconnect

end Store

end LabelPlaylists.Library
