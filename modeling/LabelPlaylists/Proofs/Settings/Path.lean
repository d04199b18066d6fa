import LabelPlaylists.Proofs.Result
import LabelPlaylists.Settings.Path

namespace LabelPlaylists.Path

variable {base : Base} {s n : String} {p q : Path} {ns : List String}

/-! ## Where a written path leads -/

-- The user whose home a written path starts from; without a name, the one who asks.
def user? (s : String) : Option String :=
  match isAbsolute s, names s with
  | false, first :: _ =>
    match first.toList with
    | '~' :: name => some (String.ofList name)
    | _ => none
  | _, _ => none

def start? (base : Base) (s : String) : Option Path :=
  match user? s with
  | some name => home? base name
  | none => some (if isAbsolute s then [] else base.directory)

-- The names that are followed from the start on.
def followed (s : String) : List String := if (user? s).isSome then (names s).tail else names s

theorem checked_eq_ok_iff : checked p = .ok q ↔ (∀ n ∈ p, '\x00' ∉ n.toList) ∧ p = q := by
  unfold checked
  split
  case isTrue h =>
    simp only [List.any_eq_true, List.contains_iff_mem] at h
    have ⟨n, hn, h⟩ := h
    exact ⟨nofun, fun ⟨hm, _⟩ => absurd h (hm n hn)⟩
  case isFalse h =>
    simp only [List.any_eq_true, List.contains_iff_mem, not_exists, not_and] at h
    exact ⟨fun he => ⟨h, Except.ok.inj he⟩, fun ⟨_, he⟩ => congrArg _ he⟩

theorem follow_checked_eq_ok_iff :
    (checked ns >>= fun ns => pure (q.follow ns)) = .ok p ↔ (∀ n ∈ ns, '\x00' ∉ n.toList) ∧ q.follow ns = p := by
  simp only [bind_eq_ok_iff, checked_eq_ok_iff]
  exact ⟨fun ⟨_, ⟨hm, he⟩, h⟩ => ⟨hm, he ▸ Except.ok.inj h⟩, fun ⟨hm, h⟩ => ⟨ns, ⟨hm, rfl⟩, congrArg _ h⟩⟩

theorem ofText_eq_ok_iff :
    ofText base s = .ok p ↔
      ∃ q, start? base s = some q ∧ (∀ n ∈ followed s, '\x00' ∉ n.toList) ∧ q.follow (followed s) = p := by
  unfold ofText start? followed
  split
  case h_1 first rest ha hn =>
    split
    case h_1 name hf =>
      have hu : user? s = some (String.ofList name) := by simp only [user?, ha, hn, hf]
      simp only [hu, hn, Option.isSome_some, if_true, List.tail_cons]
      split
      case h_1 home hh => simp only [follow_checked_eq_ok_iff, hh, Option.some.injEq, exists_eq_left']
      case h_2 hh =>
        simp only [hh]
        split <;> simp
    case h_2 hf =>
      have hu : user? s = none := by
        unfold user?
        simp only [ha, hn]
      simp [follow_checked_eq_ok_iff, hu, ha, hn, -bind_pure_comp]
  case h_2 hs =>
    have hu : user? s = none := by
      unfold user?
      split
      case h_1 => exact absurd ‹_› (hs _ _ ‹_›)
      case h_2 => rfl
    simp only [hu, Option.isSome_none, follow_checked_eq_ok_iff, Option.some.injEq, exists_eq_left', Bool.false_eq_true,
      if_false]

-- It starts from the home of somebody unknown, or a null character is in one of the names on its way.
def LeadsNowhere (base : Base) (s : String) : Prop :=
  (∃ name, user? s = some name ∧ home? base name = none) ∨ ∃ n ∈ followed s, '\x00' ∈ n.toList

theorem exists_ofText_eq_error_iff : (∃ f, ofText base s = .error f) ↔ LeadsNowhere base s := by
  have hs : (∃ name, user? s = some name ∧ home? base name = none) ↔ start? base s = none := by
    unfold start?
    cases user? s <;> simp
  have he : (∃ f, ofText base s = .error f) ↔ ∀ p, ofText base s ≠ .ok p := by
    cases ofText base s <;> simp
  rw [LeadsNowhere, hs, he]
  simp only [ne_eq, ofText_eq_ok_iff]
  cases start? base s <;> simp

/-! ## Resolved paths -/

-- A path whose names lead nowhere else than down.
def IsResolved (p : Path) : Prop := ∀ n ∈ p, n ≠ "" ∧ n ≠ "." ∧ n ≠ ".."

def Base.IsResolved (base : Base) : Prop :=
  Path.IsResolved base.directory ∧ Path.IsResolved base.home ∧ ∀ h ∈ base.homes, Path.IsResolved h.2

theorem isResolved_follow (hp : p.IsResolved) (hn : ∀ n ∈ ns, n ≠ "" ∧ n ≠ ".") : (p.follow ns).IsResolved := by
  induction ns generalizing p
  case nil => exact hp
  case cons n ns hi =>
    have ⟨hn, hns⟩ := List.forall_mem_cons.mp hn
    refine hi (p := if n = ".." then p.parent else p ++ [n]) ?_ hns
    split
    case isTrue  => exact fun m hm => hp m (List.dropLast_subset p hm)
    case isFalse h =>
      intro m hm
      rcases List.mem_append.mp hm with hm | hm
      case inl => exact hp m hm
      case inr => exact List.mem_singleton.mp hm ▸ ⟨hn.left, hn.right, h⟩

theorem isResolved_ofText (hb : base.IsResolved) (h : ofText base s = .ok p) : p.IsResolved := by
  have ⟨q, hq, _, h⟩ := ofText_eq_ok_iff.mp h
  have hr : q.IsResolved := by
    unfold start? at hq
    split at hq
    case h_1 name _ =>
      unfold home? at hq
      split at hq
      case isTrue  => exact Option.some.inj hq ▸ hb.right.left
      case isFalse =>
        have ⟨_, _, hm, _⟩ := List.lookup_eq_some_iff.mp hq
        exact hb.right.right (name, q) (by simp [hm])
    case h_2 =>
      have := Option.some.inj hq
      split at this
      case isTrue  => exact this ▸ nofun
      case isFalse => exact this ▸ hb.left
  refine h ▸ isResolved_follow hr fun n hn => ?_
  have : n ∈ names s := by
    unfold followed at hn
    split at hn
    case isTrue  => exact List.mem_of_mem_tail hn
    case isFalse => exact hn
  simpa using (List.mem_filter.mp this).right

-- A path in writing starts at the root.
theorem isAbsolute_text (p : Path) : isAbsolute p.text := by
  unfold text isAbsolute
  split
  case isTrue => decide
  case isFalse h =>
    have ⟨n, ns, hp⟩ := List.exists_cons_of_ne_nil (mt List.isEmpty_iff.mpr h)
    simp [hp, String.join_cons]

end LabelPlaylists.Path
