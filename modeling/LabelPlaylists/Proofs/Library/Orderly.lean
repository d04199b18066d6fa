import LabelPlaylists.Proofs.Library.Settled

namespace LabelPlaylists.Library

-- An operation whose rows are all of values that the store takes.
def Command.IsCareful : Command → Prop
  | .addAlbums albums     => ∀ a ∈ albums, ∀ v ∈ Store.albumValues a, Accepts v
  | .addArtists artists   => ∀ a ∈ artists, ∀ v ∈ Store.artistValues a, Accepts v
  | .addTrack _ _ artists => ∀ a ∈ artists, Accepts a
  | _                     => True

namespace Work

-- A part of an operation that changes nothing.
def Still (w : Work α) : Prop := ∀ s, (w s).2 = s

-- A part of an operation that fails only if the store refuses a statement.
def Sure (w : Work α) : Prop := ∀ s e s', w s = (.error e, s') → ∃ f, e = .fault f

-- A part of an operation that has changed nothing if it fails for another reason.
def Safe (w : Work α) : Prop := ∀ s e s', w s = (.error e, s') → (∃ f, e = .fault f) ∨ s' = s

variable {w : Work α} {f : α → Work β}

-- What fails in two parts fails in the first or in the second.
theorem bind_error_inv {s s' : Store} {e : Failure} (h : (w >>= f) s = (.error e, s')) :
    w s = (.error e, s') ∨ ∃ a s₁, w s = (.ok a, s₁) ∧ f a s₁ = (.error e, s') := by
  change Work.bind w f s = _ at h
  unfold Work.bind at h
  split at h
  case h_1 a s₁ hw => exact .inr ⟨a, s₁, hw, h⟩
  case h_2 hw      => cases h; exact .inl hw

theorem Still.bind (hw : Still w) (hf : ∀ a, Still (f a)) : Still (w >>= f) := by
  intro s
  show (Work.bind w f s).2 = s
  unfold Work.bind
  have := hw s
  split <;> rename_i h <;> rw [h] at this
  case h_1 a s' => exact (hf a s').trans this
  case h_2      => exact this

theorem Still.andThen (hw : Still w) (hf : ∀ a, Safe (f a)) : Safe (w >>= f) := by
  intro s e s' h
  rcases bind_error_inv h with h | ⟨a, s₁, h, h'⟩ <;> have := hw s <;> rw [h] at this
  case inl => exact .inr this
  case inr => exact (hf a _ _ _ h').imp id (Eq.trans · this)

theorem Sure.bind (hw : Sure w) (hf : ∀ a, Sure (f a)) : Sure (w >>= f) := by
  intro s e s' h
  rcases bind_error_inv h with h | ⟨a, s₁, _, h⟩
  case inl => exact hw _ _ _ h
  case inr => exact hf a _ _ _ h

theorem Still.safe (hw : Still w) : Safe w := fun s e s' h => .inr (by rw [← hw s, h])

theorem Sure.safe (hw : Sure w) : Safe w := fun _ _ _ h => .inl (hw _ _ _ h)

theorem Still.pure (a : α) : Still (pure a : Work α) := fun _ => rfl

theorem Still.current : Still current := fun _ => rfl

theorem Still.fail (e : Failure) : Still (fail e : Work α) := fun _ => rfl

theorem Still.bound (values : List Datum) : Still (bound values) := by
  intro s
  unfold Work.bound
  split <;> rfl

theorem Still.stamp (now : Moment) : Still (stamp now) := by
  intro s
  unfold Work.stamp
  split <;> rfl

theorem Still.ask (f : Tables → Except Fault α) : Still (ask f) := by
  intro s
  unfold Work.ask
  split <;> rfl

theorem Sure.pure (a : α) : Sure (pure a : Work α) := fun _ _ _ h => by cases h

theorem Sure.current : Sure current := fun _ _ _ h => by cases h

theorem Sure.commit : Sure commit := fun _ _ _ h => by cases h

theorem Sure.change (f : Tables → Change) : Sure (change f) := by
  intro s e s' h
  unfold Work.change at h
  split at h <;> cases h
  exact ⟨_, rfl⟩

theorem Sure.changeEach {values : α → List Datum} {f : α → Tables → Change} {items : List α}
    (hv : ∀ a ∈ items, ∀ v ∈ values a, Accepts v) : Sure (changeEach values f items) := by
  induction items
  case nil => exact .pure 0
  case cons a rest hr =>
    have ⟨ha, hv⟩ := List.forall_mem_cons.mp hv
    have hb : Sure (Work.bound (values a)) := by
      intro s e s' h
      rw [bound_ok ha s] at h
      cases h
    exact hb.bind fun _ => (Sure.change (f a)).bind fun _ => (hr hv).bind fun _ => .pure _

-- Rows that refer to a number that is too large fail at the first one.
theorem changeEach_tooLarge {k : Int} {f : Datum → Tables → Change} {items : List Datum} {e : Failure}
    {s s' : Store} (hk : ¬Datum.IsStorable k)
    (h : changeEach (fun a => [.integer k, a]) f items s = (.error e, s')) : s' = s := by
  cases items
  case nil => cases h
  case cons a rest =>
    have hb : Work.bound [.integer k, a] s = (.error .numberTooLarge, s) := by
      simp [Work.bound, refusal?, hk]
    rcases bind_error_inv h with h₁ | ⟨_, _, h₁, _⟩ <;> cases hb.symm.trans h₁
    rfl

end Work

namespace Store

open Work (Safe Still Sure changeEach)

-- Nothing is left to be made permanent, unless there are more tracks than the store can number.
def Orderly (s : Store) : Prop := s.saved = s.tables ∨ ¬Datum.IsStorable s.tables.lastTrack

variable {s s' : Store} {now : Moment} {c : Command}

theorem still_staticLabel (id : Datum) : Still (staticLabel id) := by
  refine (Still.bound _).bind fun _ => Still.current.bind fun t => ?_
  split
  case h_1 => exact .fail _
  case h_2 =>
    split
    case isTrue  => exact .fail _
    case isFalse => exact .pure _

-- An operation that just asks changes nothing.
theorem still_work (h : ¬c.Writes) : Still (work now c) := by
  cases c <;> simp only [work] <;> try exact absurd trivial h
  case addAlbums   => rw [if_pos (List.isEmpty_iff.mpr (not_not.mp h))]; exact .pure _
  case addArtists  => rw [if_pos (List.isEmpty_iff.mpr (not_not.mp h))]; exact .pure _
  case knownTracks =>
    split
    case isTrue  => exact .pure _
    case isFalse => exact (Still.bound _).bind fun _ => Still.current.bind fun _ => .pure _
  case users   => exact Still.current.bind fun _ => .pure _
  case changes => exact fun _ => rfl
  case tracks  => exact (Still.bound _).bind fun _ => .ask _
  case find    => exact (Still.bound _).bind fun _ => .ask _
  all_goals exact (Still.bound _).bind fun _ => Still.current.bind fun _ => .pure _

-- The credits of a new track are refused by a statement if the store can hold the number of the track.
theorem work_addTrack_error {user : Datum} {v : TrackValues} {artists : List Datum} {e : Failure}
    (ha : ∀ a ∈ artists, Accepts a) (h : work now (.addTrack user v artists) s = (.error e, s')) :
    (∃ f, e = .fault f) ∨ s' = s ∨ ¬Datum.IsStorable s'.tables.lastTrack := by
  rcases Work.bind_error_inv h with h₁ | ⟨_, s₁, _, h₁⟩
  case inl => exact .inr (.inl (by rw [← Still.bound (trackValues user v) s, h₁]))
  rcases Work.bind_error_inv h₁ with h₂ | ⟨_, s₂, _, h₂⟩
  case inl => exact .inl (Sure.change _ _ _ _ h₂)
  rcases Work.bind_error_inv h₂ with h₃ | ⟨t, s₃, ht, h₃⟩
  case inl => cases h₃
  cases ht
  by_cases hn : Datum.IsStorable s₂.tables.lastTrack
  case pos =>
    have he : Sure (changeEach (fun a => [.integer s₂.tables.lastTrack, a])
        (fun a t => t.addCredit s₂.tables.lastTrack a) artists) :=
      .changeEach fun a hm => by simpa [hn] using ha a hm
    exact .inl (Sure.bind he (fun _ => Sure.commit.bind fun _ => .pure _) _ _ _ h₃)
  case neg =>
    rcases Work.bind_error_inv h₃ with h₄ | ⟨_, s₄, _, h₄⟩
    case inr => cases h₄
    case inl => exact .inr (.inr (Work.changeEach_tooLarge hn h₄ ▸ hn))

-- Apart from the credits of tracks no operation is broken off in its middle.
theorem safe_work (hc : c.IsCareful) (ht : ∀ u v vs, c ≠ .addTrack u v vs) : Safe (work now c) := by
  by_cases hw : c.Writes
  case neg => exact (still_work hw).safe
  cases c <;> simp only [work] <;> try exact absurd hw id
  case putUser =>
    refine (Still.stamp _).andThen fun _ => (Still.bound _).andThen fun _ => Sure.safe ?_
    exact (Sure.change _).bind fun _ => Sure.commit.bind fun _ => Sure.current.bind fun _ => .pure _
  case setTokens =>
    refine (Still.stamp _).andThen fun _ => (Still.bound _).andThen fun _ => Sure.safe ?_
    exact (Sure.change _).bind fun _ => .commit
  case addAlbums =>
    rw [if_neg (mt List.isEmpty_iff.mp hw)]
    exact (Sure.bind (.changeEach hc) fun _ => Sure.commit.bind fun _ => .pure _).safe
  case addArtists =>
    rw [if_neg (mt List.isEmpty_iff.mp hw)]
    exact (Sure.bind (.changeEach hc) fun _ => Sure.commit.bind fun _ => .pure _).safe
  case addTrack => exact absurd rfl (ht _ _ _)
  case addLabel =>
    refine (Still.stamp _).andThen fun _ => (Still.bound _).andThen fun _ => Sure.safe ?_
    exact (Sure.change _).bind fun _ => Sure.commit.bind fun _ => Sure.current.bind fun _ => .pure _
  case setCriteria =>
    refine (Still.bound _).andThen fun _ => ((Sure.change _).bind fun _ => ?_).safe
    split
    case isTrue  => exact (Sure.change _).bind fun _ => .commit
    case isFalse => exact .commit
  case addMembership =>
    refine (still_staticLabel _).andThen fun _ => (Still.bound _).andThen fun _ => Sure.safe ?_
    exact (Sure.change _).bind fun _ => .commit
  case removeMembership =>
    refine (still_staticLabel _).andThen fun _ => (Still.bound _).andThen fun _ => Sure.safe ?_
    exact (Sure.change _).bind fun _ => .commit
  case addPlaylist =>
    refine (Still.bound _).andThen fun _ => Sure.safe ?_
    exact (Sure.change _).bind fun _ => Sure.commit.bind fun _ => Sure.current.bind fun _ => .pure _

-- What is saved falls behind the tables only when a track has got too large a number.
theorem Orderly.perform (hc : c.IsCareful) (h : s.Orderly) : (s.perform now c).2.Orderly := by
  rcases hw : work now c s with ⟨_ | a, s'⟩
  case error e =>
    have hs : (∃ f, e = .fault f) ∨ s'.Orderly := by
      by_cases ht : ∃ u v vs, c = .addTrack u v vs
      case neg =>
        refine (safe_work hc (fun u v vs he => ht ⟨u, v, vs, he⟩) _ _ _ hw).imp_right fun he => ?_
        exact he ▸ h
      case pos =>
        obtain ⟨u, v, vs, rfl⟩ := ht
        refine (work_addTrack_error hc hw).imp_right fun hs => ?_
        rcases hs with he | hn
        case inl => exact he ▸ h
        case inr => exact .inr hn
    unfold Store.perform
    rw [hw]
    cases e
    case fault => exact .inl rfl
    all_goals exact hs.resolve_left nofun
  case ok =>
    rw [perform_ok hw]
    by_cases hwr : c.Writes
    case pos => exact .inl (perform_writes hwr (perform_ok hw))
    case neg =>
      have hs : (work now c s).2 = s := still_work hwr s
      rw [hw] at hs
      exact hs ▸ h

-- Nothing is taken back when an operation that just asks is refused.
theorem perform_idle (hc : ¬c.Writes) (h : s.saved = s.tables) : (s.perform now c).2 = s := by
  have hs : (work now c s).2 = s := still_work hc s
  unfold Store.perform
  split
  case h_1 f s' hw =>
    rw [hw] at hs
    obtain rfl : s' = s := hs
    exact congrArg (fun tables => { s' with tables }) h
  case h_2 => exact hs

end Store

end LabelPlaylists.Library
