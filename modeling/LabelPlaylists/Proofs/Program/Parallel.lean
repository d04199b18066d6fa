import LabelPlaylists.Program.Parallel
import LabelPlaylists.Proofs.Account.Service

namespace LabelPlaylists

namespace Program

variable {found : List (α × Except Failure β)}

-- Nothing has failed, so all there is to report are the results.
theorem eq_results_of_split (h : (split found).2 = []) :
    found = (split found).1.map fun r => (r.1, .ok r.2) := by
  fun_induction split found
  case case1 => rfl
  case case2 hr => exact List.cons_eq_cons.mpr ⟨rfl, hr h⟩
  case case3 => cases h

theorem mem_of_mem_split {a : α} {e : Failure} (h : (a, e) ∈ (split found).2) : (a, .error e) ∈ found := by
  fun_induction split found
  case case1 => cases h
  case case2 hr => exact List.mem_cons_of_mem _ (hr h)
  case case3 hr =>
    rcases List.mem_cons.mp h with h | h
    case inl =>
      cases h
      exact List.mem_cons_self
    case inr => exact List.mem_cons_of_mem _ (hr h)

-- Failures are logged line by line.
theorem asks_logFailures {P : Request → Prop} {description : String} {shown : α → String}
    {failures : List (α × Failure)} (hl : ∀ level logger message, P (.log { level, logger, message })) :
    (logFailures description shown failures).Asks P := by
  induction failures
  case nil         => exact .done
  case cons _ _ hr => exact Asks.bind (.ask (hl _ _ _) fun _ => .done) fun _ => hr

theorem asks_outcomes {P : Request → Prop} {f : α → Program β} {items : List α} (hf : ∀ a, (f a).Asks P) :
    (outcomes f items).Asks P := by
  induction items
  case nil         => exact .done
  case cons _ _ hr => exact (hf _).outcome.bind fun _ => hr.bind fun _ => .done

theorem asks_inParallel {P : Request → Prop} {workers : Int} {description : String} {shown : α → String}
    {f : α → Program β} {items : List α} (hf : ∀ a, (f a).Asks P)
    (hl : ∀ level logger message, P (.log { level, logger, message })) :
    (inParallel workers description shown f items).Asks P := by
  unfold inParallel
  split
  case isTrue => exact .done
  case isFalse =>
    split
    case isTrue => exact .fail
    case isFalse =>
      refine (asks_outcomes hf).bind fun found => ?_
      dsimp only
      split
      case h_1 => exact .done
      case h_2 => exact (asks_logFailures hl).bind fun _ => .fail

end Program

namespace Surroundings

variable {σ : Type} {S : Surroundings σ} {s s' s'' : σ} {es more : List Exchange}

-- A program runs on every item in turn, whatever has become of the items before.
inductive Each (S : Surroundings σ) (f : α → Program β) :
    List α → σ → List Exchange → List (α × Except Failure β) → σ → Prop
  | nil {s : σ} : Each S f [] s [] [] s
  | cons {a rest s es o s' more found s''} :
    S.Runs (f a) s es o s' → Each S f rest s' more found s'' →
    Each S f (a :: rest) s (es ++ more) ((a, o) :: found) s''

-- Every item has been worked on in a run of its own.
theorem Each.runs {f : α → Program β} {items : List α} {found : List (α × Except Failure β)}
    (h : S.Each f items s es found s') :
    found.map Prod.fst = items ∧ ∀ r ∈ found, ∃ s₁ es₁ s₂, S.Runs (f r.1) s₁ es₁ r.2 s₂ := by
  induction h
  case nil => exact ⟨rfl, List.forall_mem_nil _⟩
  case cons h₁ _ hr =>
    exact ⟨congrArg (_ :: ·) hr.left, List.forall_mem_cons.mpr ⟨⟨_, _, _, h₁⟩, hr.right⟩⟩

namespace Runs

variable {f : α → Program β} {items : List α} {workers : Int} {description : String} {shown : α → String}

theorem outcome_bind_inv {t : Program α} {f : Except Failure α → Program β} {o : Except Failure β}
    (h : S.Runs (t.outcome >>= f) s es o s') :
    ∃ found s₁ before rest, es = before ++ rest ∧ S.Runs t s before found s₁ ∧
      S.Runs (f found) s₁ rest o s' := by
  rcases h.bind_inv with ⟨_, _, h₁⟩ | ⟨_, s₁, before, rest, he, h₁, h⟩ <;>
    have ⟨found, ho, h₁⟩ := h₁.outcome_inv <;> cases ho
  exact ⟨_, s₁, before, rest, he, h₁, h⟩

theorem outcomes_inv {o : Except Failure (List (α × Except Failure β))}
    (h : S.Runs (Program.outcomes f items) s es o s') :
    ∃ found, o = .ok found ∧ S.Each f items s es found s' := by
  induction items generalizing s es o s'
  case nil =>
    have ⟨he, ho, hs⟩ := h.done_inv
    subst he hs
    exact ⟨[], ho, .nil⟩
  case cons a rest hr =>
    have ⟨found, s₁, _, _, he, h₁, h⟩ := h.outcome_bind_inv
    rcases h.bind_inv with ⟨_, _, h₂⟩ | ⟨_, s₂, _, _, he₂, h₂, h⟩ <;> have ⟨_, ho₂, h₂⟩ := hr h₂ <;> cases ho₂
    have ⟨hn, ho, hs⟩ := h.done_inv
    subst he he₂ hn hs
    rw [List.append_nil]
    exact ⟨_, ho, .cons h₁ h₂⟩

theorem logFailures_inv {failures : List (α × Failure)} {o : Except Failure Unit}
    (h : S.Runs (Program.logFailures description shown failures) s es o s') :
    o = .ok () ∧ called es = [] ∧ S.scene s' = S.scene s := by
  refine ⟨?_, h.called_eq_nil (Program.asks_logFailures fun _ _ _ => trivial), ?_⟩ <;> induction failures generalizing s es
  case refine_1.nil => exact h.done_inv.right.left
  case refine_2.nil => exact congrArg S.scene h.done_inv.right.right
  case refine_1.cons _ _ hr =>
    have ⟨_, _, _, _, _, h⟩ := h.log_bind_inv
    exact hr h
  case refine_2.cons _ _ hr =>
    have ⟨_, _, _, _, hs, h⟩ := h.log_bind_inv
    exact (hr h).trans hs

-- All items are worked on before a failure is reported, if there are workers at all.
theorem inParallel_inv {o : Except Failure (List (α × β))}
    (h : S.Runs (Program.inParallel workers description shown f items) s es o s') :
    (workers < 1 ∧ called es = [] ∧ s' = s ∧ ∃ e, o = .error e) ∨
    ∃ found s₁ before rest, S.Each f items s before found s₁ ∧ es = before ++ rest ∧
      called rest = [] ∧ S.scene s' = S.scene s₁ ∧
      ((∃ results, o = .ok results ∧ found = results.map fun r => (r.1, .ok r.2)) ∨
        ∃ a e, o = .error e ∧ (a, .error e) ∈ found) := by
  unfold Program.inParallel at h
  split at h
  case isTrue hn =>
    have ⟨he, ho, hs⟩ := h.done_inv
    rw [List.isEmpty_iff.mp hn, he, hs]
    exact .inr ⟨[], s, [], [], .nil, rfl, rfl, rfl, .inl ⟨[], ho, rfl⟩⟩
  case isFalse =>
    split at h
    case isTrue hw =>
      have ⟨he, ho, hs⟩ := h.fail_inv
      exact .inl ⟨hw, he ▸ rfl, hs, _, ho⟩
    case isFalse =>
      rcases h.bind_inv with ⟨_, _, h₁⟩ | ⟨found, s₁, before, rest, he, h₁, h⟩ <;>
        have ⟨_, ho₁, h₁⟩ := h₁.outcomes_inv <;> cases ho₁
      refine .inr ⟨found, s₁, before, rest, h₁, he, ?_⟩
      dsimp only at h
      split at h
      case h_1 hf =>
        have ⟨hn, ho, hs⟩ := h.done_inv
        exact ⟨hn ▸ rfl, hs ▸ rfl, .inl ⟨_, ho, Program.eq_results_of_split hf⟩⟩
      case h_2 a e others hf =>
        have hm := Program.mem_of_mem_split (hf ▸ List.mem_cons_self)
        rcases h.bind_inv with ⟨_, _, h₂⟩ | ⟨_, _, _, _, he₂, h₂, h⟩
        case inl => cases h₂.logFailures_inv.left
        case inr =>
          have ⟨_, hc, hs₂⟩ := h₂.logFailures_inv
          have ⟨hn, ho, hs⟩ := h.fail_inv
          refine ⟨?_, hs ▸ hs₂, .inr ⟨a, e, ho, hm⟩⟩
          rw [he₂, hn, List.append_nil, hc]

end Runs

namespace Preserves

variable {J : Scene → Prop} {f : α → Program β} {items : List α} {workers : Int} {description : String}
variable {shown : α → String}

theorem outcomes (hf : ∀ a ∈ items, S.Preserves J (f a)) : S.Preserves J (Program.outcomes f items) := by
  induction items
  case nil => exact .done
  case cons _ _ hr =>
    have ⟨ha, hf⟩ := List.forall_mem_cons.mp hf
    exact ha.outcome.bind fun _ => (hr hf).bind fun _ => .done

theorem logFailures {failures : List (α × Failure)} :
    S.Preserves J (Program.logFailures description shown failures) := by
  induction failures
  case nil         => exact .done
  case cons _ _ hr => exact Preserves.bind .log fun _ => hr

theorem inParallel (hf : ∀ a ∈ items, S.Preserves J (f a)) :
    S.Preserves J (Program.inParallel workers description shown f items) := by
  unfold Program.inParallel
  split
  case isTrue => exact .done
  case isFalse =>
    split
    case isTrue => exact .fail
    case isFalse =>
      refine (outcomes hf).bind fun found => ?_
      dsimp only
      split
      case h_1 => exact .done
      case h_2 => exact logFailures.bind fun _ => .fail

end Preserves

end Surroundings

end LabelPlaylists
