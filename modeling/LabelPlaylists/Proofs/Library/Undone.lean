import LabelPlaylists.Proofs.Library.Events
import LabelPlaylists.Proofs.Library.Search

namespace LabelPlaylists.Library

open Store (albumValues artistValues trackValues)
open Work (refusal?)

-- A batch of rows that is broken off by a number that is too large, with the tables that the rows
-- before it have been put into.
inductive BrokenOff (values : α → List Datum) (f : α → Tables → Change) :
    List α → Tables → Tables → Prop
  | here : refusal? 1 (values a) = some .numberTooLarge → BrokenOff values f (a :: rest) t t
  | next :
    refusal? 1 (values a) = none → f a t = .ok (t₁, n) → BrokenOff values f rest t₁ t' →
    BrokenOff values f (a :: rest) t t'

-- The tables that an operation leaves behind when it is broken off in its middle.
inductive Command.Leaves : Command → Tables → Tables → Prop
  | albums :
    BrokenOff albumValues (fun v t => .ok (t.addAlbum v)) albums t t' →
    Leaves (.addAlbums albums) t t'
  | artists :
    BrokenOff artistValues (fun v t => .ok (t.addArtist v)) artists t t' →
    Leaves (.addArtists artists) t t'
  | credits {u v} :
    refusal? 1 (trackValues u v) = none → t.addTrack u v = .ok (t₁, n) →
    BrokenOff (fun a => [.integer t₁.lastTrack, a]) (fun a t => t.addCredit t₁.lastTrack a) artists
      t₁ t' →
    Leaves (.addTrack u v artists) t t'

namespace Work

variable {s s' : Store} {e : Failure}

theorem refusal?_eq_some {place : Nat} {values : List Datum} (h : refusal? place values = some e) :
    (∃ f, e = .fault f) ∨ e = .numberTooLarge := by
  induction values generalizing place
  case nil => cases h
  case cons v rest hi =>
    cases v <;> simp only [refusal?] at h
    case integer n =>
      split at h
      case isTrue  => exact hi h
      case isFalse => exact .inr (Option.some.inj h).symm
    case foreign => exact .inl ⟨_, (Option.some.inj h).symm⟩
    all_goals exact hi h

theorem bound_error_inv {values : List Datum} (h : bound values s = (.error e, s')) :
    refusal? 1 values = some e ∧ s' = s := by
  unfold bound at h
  split at h <;> cases h
  case h_2 hr => exact ⟨hr, rfl⟩

theorem bind_error {w : Work α} {f : α → Work β} (h : w s = (.error e, s')) :
    (w >>= f) s = (.error e, s') := by
  show Work.bind w f s = _
  simp [Work.bind, h]

-- Rows for every item fail because the store refuses a statement, or they are broken off.
theorem changeEach_error_inv {values : α → List Datum} {f : α → Tables → Change} {items : List α}
    (h : changeEach values f items s = (.error e, s')) :
    (∃ g, e = .fault g) ∨ e = .numberTooLarge ∧ BrokenOff values f items s.tables s'.tables := by
  induction items generalizing s
  case nil => cases h
  case cons a rest hi =>
    rcases bind_error_inv h with h₁ | ⟨_, s₁, hb, h₁⟩
    case inl =>
      have ⟨hr, hs⟩ := bound_error_inv h₁
      refine (refusal?_eq_some hr).imp_right fun he => ⟨he, ?_⟩
      exact hs ▸ .here (he ▸ hr)
    case inr =>
      have ⟨hs₁, ha⟩ := bound_inv hb
      rcases bind_error_inv h₁ with h₂ | ⟨n, s₂, hc, h₂⟩
      case inl => exact .inl (Sure.change _ _ _ _ h₂)
      case inr =>
        have ⟨t, ht, hs₂⟩ := change_inv hc
        rcases bind_error_inv h₂ with h₃ | ⟨_, _, _, h₃⟩
        case inr => cases h₃
        case inl =>
          refine (hi h₃).imp_right fun ⟨he, hr⟩ => ⟨he, ?_⟩
          subst hs₁ hs₂
          exact .next (refusal?_eq_none_iff.mpr ha) ht hr

theorem changeEach_brokenOff {values : α → List Datum} {f : α → Tables → Change} {items : List α}
    {t : Tables} (h : BrokenOff values f items s.tables t) :
    ∃ s', changeEach values f items s = (.error .numberTooLarge, s') ∧ s'.tables = t := by
  generalize ht₀ : s.tables = t₀ at h
  induction h generalizing s
  case here a rest t₀ hr =>
    have hb : bound (values a) s = (.error .numberTooLarge, s) := by simp [bound, hr]
    exact ⟨s, bind_error hb, ht₀⟩
  case next a t₀ t₁ n rest t' hv hf _ hi =>
    subst ht₀
    obtain ⟨s', h', ht⟩ := @hi { s with tables := t₁, changes := s.changes + n } rfl
    refine ⟨s', ?_, ht⟩
    rw [changeEach, bind_ok (bound_ok (refusal?_eq_none_iff.mp hv) _), bind_ok (change_ok hf)]
    exact bind_error h'

-- A part of an operation that makes nothing permanent.
def Tentative (w : Work α) : Prop := ∀ s, (w s).2.saved = s.saved

-- A part of an operation that has made nothing permanent if it fails.
def Undoable (w : Work α) : Prop := ∀ s e s', w s = (.error e, s') → s'.saved = s.saved

variable {w : Work α} {f : α → Work β}

theorem Still.tentative (hw : Still w) : Tentative w := fun s => congrArg Store.saved (hw s)

theorem Tentative.bind (hw : Tentative w) (hf : ∀ a, Tentative (f a)) : Tentative (w >>= f) := by
  intro s
  show (Work.bind w f s).2.saved = s.saved
  unfold Work.bind
  have := hw s
  split <;> rename_i h <;> rw [h] at this
  case h_1 a s' => exact (hf a s').trans this
  case h_2      => exact this

theorem Tentative.change (f : Tables → Change) : Tentative (change f) := by
  intro s
  unfold Work.change
  split <;> rfl

theorem Tentative.changeEach (values : α → List Datum) (f : α → Tables → Change) (items : List α) :
    Tentative (changeEach values f items) := by
  induction items
  case nil => exact (Still.pure 0).tentative
  case cons a rest hi =>
    refine (Still.bound _).tentative.bind fun _ => (change _).bind fun _ => ?_
    exact hi.bind fun _ => (Still.pure _).tentative

theorem Tentative.andThen (hw : Tentative w) (hf : ∀ a, Undoable (f a)) : Undoable (w >>= f) := by
  intro s e s' h
  rcases bind_error_inv h with h | ⟨a, s₁, h, h'⟩ <;> have := hw s <;> rw [h] at this
  case inl => exact this
  case inr => exact (hf a _ _ _ h').trans this

-- Nothing fails after changes have been made permanent.
theorem Undoable.commit : Undoable commit := fun _ _ _ h => by cases h

theorem Undoable.commitThen {f : Unit → Work α} (hf : ∀ s, ∃ a, f () s = (.ok a, s)) :
    Undoable (Work.commit >>= f) := by
  intro s e s' h
  have ⟨a, ha⟩ := hf { s with saved := s.tables }
  cases ha.symm.trans h

end Work

namespace Store

open Work (Tentative Undoable Still)

variable {s s' : Store} {now : Moment} {c : Command} {e : Failure}

-- An operation that fails has made nothing permanent.
theorem undoable_work : Undoable (work now c) := by
  by_cases hc : c.Writes
  case neg => exact fun s e s' h => by rw [← still_work hc s, h]
  cases c <;> simp only [work] <;> try exact absurd hc id
  case putUser =>
    refine (Still.stamp _).tentative.andThen fun _ => (Still.bound _).tentative.andThen fun _ => ?_
    exact (Tentative.change _).andThen fun _ => .commitThen fun _ => ⟨_, rfl⟩
  case setTokens =>
    refine (Still.stamp _).tentative.andThen fun _ => (Still.bound _).tentative.andThen fun _ => ?_
    exact (Tentative.change _).andThen fun _ => .commit
  case addAlbums =>
    rw [if_neg (mt List.isEmpty_iff.mp hc)]
    exact (Tentative.changeEach _ _ _).andThen fun _ => .commitThen fun _ => ⟨_, rfl⟩
  case addArtists =>
    rw [if_neg (mt List.isEmpty_iff.mp hc)]
    exact (Tentative.changeEach _ _ _).andThen fun _ => .commitThen fun _ => ⟨_, rfl⟩
  case addTrack =>
    refine (Still.bound _).tentative.andThen fun _ => (Tentative.change _).andThen fun _ => ?_
    refine Still.current.tentative.andThen fun _ => (Tentative.changeEach _ _ _).andThen fun _ => ?_
    exact .commitThen fun _ => ⟨_, rfl⟩
  case addLabel =>
    refine (Still.stamp _).tentative.andThen fun _ => (Still.bound _).tentative.andThen fun _ => ?_
    exact (Tentative.change _).andThen fun _ => .commitThen fun _ => ⟨_, rfl⟩
  case setCriteria =>
    refine (Still.bound _).tentative.andThen fun _ => (Tentative.change _).andThen fun _ => ?_
    split
    case isTrue  => exact (Tentative.change _).andThen fun _ => .commit
    case isFalse => exact .commit
  case addMembership =>
    refine (still_staticLabel _).tentative.andThen fun _ => (Still.bound _).tentative.andThen fun _ => ?_
    exact (Tentative.change _).andThen fun _ => .commit
  case removeMembership =>
    refine (still_staticLabel _).tentative.andThen fun _ => (Still.bound _).tentative.andThen fun _ => ?_
    exact (Tentative.change _).andThen fun _ => .commit
  case addPlaylist =>
    refine (Still.bound _).tentative.andThen fun _ => (Tentative.change _).andThen fun _ => ?_
    exact .commitThen fun _ => ⟨_, rfl⟩

-- If an operation fails, then the store has refused a statement, or nothing has been changed, or rows
-- have been broken off.
theorem work_error_inv (h : work now c s = (.error e, s')) :
    (∃ f, e = .fault f) ∨ s' = s ∨ c.Leaves s.tables s'.tables := by
  cases c
  case addAlbums albums =>
    by_cases hn : albums = []
    case pos => subst hn; cases h
    case neg =>
      simp only [work, List.isEmpty_iff, hn, if_false] at h
      rcases Work.bind_error_inv h with h₁ | ⟨_, _, _, h₁⟩
      case inl => exact (Work.changeEach_error_inv h₁).imp_right fun hb => .inr (.albums hb.right)
      case inr => cases h₁
  case addArtists artists =>
    by_cases hn : artists = []
    case pos => subst hn; cases h
    case neg =>
      simp only [work, List.isEmpty_iff, hn, if_false] at h
      rcases Work.bind_error_inv h with h₁ | ⟨_, _, _, h₁⟩
      case inl => exact (Work.changeEach_error_inv h₁).imp_right fun hb => .inr (.artists hb.right)
      case inr => cases h₁
  case addTrack user v artists =>
    rcases Work.bind_error_inv h with h₁ | ⟨_, s₁, hb, h₁⟩
    case inl => exact .inr (.inl (Work.bound_error_inv h₁).right)
    rcases Work.bind_error_inv h₁ with h₂ | ⟨_, s₂, hd, h₂⟩
    case inl => exact .inl (Work.Sure.change _ _ _ _ h₂)
    rcases Work.bind_error_inv h₂ with h₃ | ⟨_, s₃, hk, h₃⟩
    case inl => cases h₃
    rcases Work.bind_error_inv h₃ with h₄ | ⟨_, _, _, h₄⟩
    case inr => cases h₄
    obtain ⟨hs, hv⟩ := Work.bound_inv hb
    obtain ⟨t, ht, hs₂⟩ := Work.change_inv hd
    cases hk
    subst hs hs₂
    refine (Work.changeEach_error_inv h₄).imp_right fun hr => .inr ?_
    exact .credits (Work.refusal?_eq_none_iff.mpr hv) ht hr.right
  all_goals
    have hs := fun hc ht => safe_work hc ht s e s' h
    exact (hs trivial fun _ _ _ h => by cases h).imp_right .inl

-- Rows that can be broken off are.
theorem work_of_leaves (now : Moment) {t : Tables} (h : c.Leaves s.tables t) :
    ∃ s', work now c s = (.error .numberTooLarge, s') ∧ s'.tables = t := by
  cases h
  case albums albums hb =>
    have ⟨s', h, ht⟩ := Work.changeEach_brokenOff hb
    cases albums
    case nil  => cases hb
    case cons => exact ⟨s', Work.bind_error h, ht⟩
  case artists artists hb =>
    have ⟨s', h, ht⟩ := Work.changeEach_brokenOff hb
    cases artists
    case nil  => cases hb
    case cons => exact ⟨s', Work.bind_error h, ht⟩
  case credits artists t₁ n u v hv hr hb =>
    have ⟨s', h, ht⟩ := Work.changeEach_brokenOff
      (s := { s with tables := t₁, changes := s.changes + n }) hb
    refine ⟨s', ?_, ht⟩
    rw [work, Work.bind_ok (Work.bound_ok (Work.refusal?_eq_none_iff.mp hv) _), Work.bind_ok (Work.change_ok hr)]
    exact (Work.bind_ok rfl).trans (Work.bind_error h)

-- A fault takes back all that is not permanent. Any other failure takes nothing back, and it has left
-- nothing behind unless rows have been broken off.
theorem perform_error_inv (h : s.perform now c = (.error e, s')) :
    s'.saved = s.saved ∧
      ((∃ f, e = .fault f) ∧ s'.tables = s.saved ∨
        (¬∃ f, e = .fault f) ∧ (s'.tables = s.tables ∨ c.Leaves s.tables s'.tables)) := by
  rcases hw : work now c s with ⟨e₁ | a, s₁⟩
  case ok => cases h.symm.trans (perform_ok hw)
  have hs := undoable_work _ _ _ hw
  by_cases hf : ∃ f, e₁ = .fault f
  case pos =>
    obtain ⟨f, rfl⟩ := hf
    have hp : s.perform now c = (.error (.fault f), s₁.rollback) := by simp [perform, hw]
    cases h.symm.trans hp
    exact ⟨hs, .inl ⟨⟨f, rfl⟩, hs⟩⟩
  case neg =>
    have hp : s.perform now c = (.error e₁, s₁) := by
      unfold perform
      rw [hw]
      split
      case h_1 he => cases he; exact absurd ⟨_, rfl⟩ hf
      case h_2    => rfl
    cases h.symm.trans hp
    have ht := (work_error_inv hw).resolve_left hf
    exact ⟨hs, .inr ⟨hf, ht.imp_left (congrArg Store.tables)⟩⟩

theorem perform_of_leaves (now : Moment) {t : Tables} (h : c.Leaves s.tables t) :
    ∃ s', s.perform now c = (.error .numberTooLarge, s') ∧ s'.tables = t := by
  have ⟨s', hw, ht⟩ := work_of_leaves now h
  exact ⟨s', by simp [perform, hw], ht⟩

-- An operation that fails has made nothing permanent itself. Nothing of it is seen or made permanent
-- later unless rows have been broken off behind others that are new; and a fault changes nothing else
-- unless an earlier operation has left such rows.
theorem perform_undone_iff (h : s.perform now c = (.error e, s')) :
    s'.saved = s.saved ∧
      ((∀ events, (s.after events).Agrees (s'.after events)) ↔
        (∀ t, c.Leaves s.tables t → t = s.tables) ∧ ((∃ f, e = .fault f) → s.saved = s.tables)) := by
  have ⟨hs, ht⟩ := perform_error_inv h
  refine ⟨hs, fun ha => ⟨fun t hl => ?_, fun hf => ?_⟩, fun ⟨hl, hf⟩ => ?_⟩
  case refine_1 =>
    have ⟨s₁, hp, ht⟩ := perform_of_leaves now hl
    cases h.symm.trans hp
    exact ht.symm.trans (ha []).tables
  case refine_2 =>
    rcases ht with ⟨_, ht⟩ | ⟨hn, _⟩
    case inl => exact ht.symm.trans (ha []).tables
    case inr => exact absurd hf hn
  case refine_3 =>
    have ht : s'.tables = s.tables := by
      rcases ht with ⟨he, ht⟩ | ⟨_, ht | hb⟩
      case inl     => exact ht.trans (hf he)
      case inr.inl => exact ht
      case inr.inr => exact hl _ hb
    exact Agrees.after ⟨ht, hs⟩

namespace Sample

-- A track whose second artist is a number that is too large.
def unfinished : Command :=
  .addTrack (.integer 1) ⟨.text "other", .text "Other", .text "album", .text "2024-01-02", false⟩
    [.text "artist", .integer (2 ^ 70)]

def broken : Store := (library.perform noon unfinished).2

theorem library_leaves : unfinished.Leaves library.tables broken.tables :=
  .credits rfl rfl (.next rfl rfl (.here rfl))

end Sample

-- The track stays behind with one of its artists, and the next operation makes it permanent.
theorem perform_undone_iff_credits :
    Reached Command.IsPlain Sample.library ∧
      Sample.library.perform Sample.noon Sample.unfinished = (.error .numberTooLarge, Sample.broken) ∧
      Sample.broken.tables.credits = [⟨1, "artist"⟩, ⟨2, "artist"⟩] ∧
      (Sample.broken.after
          [.perform Sample.noon (.addLabel (.integer 1) (.text "label") .null), .reconnect]).tables.credits
        = [⟨1, "artist"⟩, ⟨2, "artist"⟩] ∧
      Sample.broken.saved = Sample.library.saved ∧
      ¬∀ events, (Sample.library.after events).Agrees (Sample.broken.after events) := by
  have h : Sample.library.perform Sample.noon Sample.unfinished
      = (.error .numberTooLarge, Sample.broken) := rfl
  have ⟨hs, hi⟩ := perform_undone_iff h
  refine ⟨Sample.library_reached, h, by decide +kernel, by decide +kernel, hs, fun ha => ?_⟩
  have hn : Sample.broken.tables ≠ Sample.library.tables := by decide +kernel
  exact hn ((hi.mp ha).left _ Sample.library_leaves)

end Store

end LabelPlaylists.Library
