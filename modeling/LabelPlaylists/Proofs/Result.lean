namespace LabelPlaylists

-- A result that needs another one goes on with it or fails with it.
theorem bind_eq_ok_iff {x : Except ε α} {f : α → Except ε β} {b : β} :
    x >>= f = .ok b ↔ ∃ a, x = .ok a ∧ f a = .ok b := by
  cases x
  case error => exact ⟨nofun, fun ⟨_, h, _⟩ => nomatch h⟩
  case ok a  => exact ⟨fun h => ⟨a, rfl, h⟩, fun ⟨_, h, h'⟩ => Except.ok.inj h ▸ h'⟩

theorem bind_eq_error_iff {x : Except ε α} {f : α → Except ε β} {e : ε} :
    x >>= f = .error e ↔ x = .error e ∨ ∃ a, x = .ok a ∧ f a = .error e := by
  cases x
  case error =>
    refine ⟨fun h => .inl (by cases h; rfl), ?_⟩
    rintro (h | ⟨_, h, _⟩) <;> cases h
    rfl
  case ok a  =>
    refine ⟨fun h => .inr ⟨a, rfl, h⟩, ?_⟩
    rintro (h | ⟨_, h, hf⟩) <;> cases h
    exact hf

-- Checks one after the other fail where the first of them fails.
theorem forM_eq_error_iff {check : α → Except ε Unit} {l : List α} {e : ε} :
    l.forM check = .error e ↔
      ∃ before a after, l = before ++ a :: after ∧ (∀ b ∈ before, check b = .ok ()) ∧ check a = .error e := by
  induction l
  case nil => exact ⟨nofun, fun ⟨before, _, _, h, _⟩ => by cases before <;> cases h⟩
  case cons a l hi =>
    change (check a >>= fun _ => l.forM check) = _ ↔ _
    rw [bind_eq_error_iff]
    constructor
    case mp =>
      rintro (h | ⟨_, ha, h⟩)
      case inl => exact ⟨[], a, l, rfl, nofun, h⟩
      case inr =>
        have ⟨before, b, after, hl, hb, h⟩ := hi.mp h
        exact ⟨a :: before, b, after, congrArg _ hl, List.forall_mem_cons.mpr ⟨ha, hb⟩, h⟩
    case mpr =>
      rintro ⟨_ | ⟨_, before⟩, b, after, hl, hb, h⟩ <;> cases hl
      case nil  => exact .inl h
      case cons =>
        have ⟨ha, hb⟩ := List.forall_mem_cons.mp hb
        exact .inr ⟨(), ha, hi.mpr ⟨before, b, after, rfl, hb, h⟩⟩

theorem eq_ok_of_toOption {x : Except ε α} {a : α} (h : x.toOption = some a) : x = .ok a := by
  cases x <;> cases h
  rfl

end LabelPlaylists
