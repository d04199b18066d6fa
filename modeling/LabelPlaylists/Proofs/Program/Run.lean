import LabelPlaylists.Proofs.Program.Surroundings

namespace LabelPlaylists

-- A request with the reply to it.
structure Exchange where
  request : Request
  reply   : request.Reply

namespace Program

-- Whatever the replies are, all requests of a program are of the given kind.
inductive Asks (P : Request → Prop) : Program α → Prop
  | done {a} : Asks P (.done a)
  | fail {e} : Asks P (.fail e)
  | ask {r next} : P r → (∀ reply, Asks P (next reply)) → Asks P (.ask r next)

namespace Asks

variable {P Q : Request → Prop} {t : Program α}

theorem bind {f : α → Program β} (ht : t.Asks P) (hf : ∀ a, (f a).Asks P) : (t >>= f).Asks P := by
  induction ht
  case done       => exact hf _
  case fail       => exact .fail
  case ask hr _ h => exact .ask hr h

theorem ask_inv {r : Request} {next : r.Reply → Program α} (h : (Program.ask r next).Asks P) :
    P r ∧ ∀ reply, (next reply).Asks P := by
  cases h
  case ask hr hn => exact ⟨hr, hn⟩

theorem outcome (h : t.Asks P) : t.outcome.Asks P := by
  induction h
  case done       => exact .done
  case fail       => exact .done
  case ask hr _ h => exact .ask hr h

theorem mono (h : t.Asks P) (hp : ∀ r, P r → Q r) : t.Asks Q := by
  induction h
  case done       => exact .done
  case fail       => exact .fail
  case ask hr _ h => exact .ask (hp _ hr) h

end Asks

end Program

namespace Surroundings

variable {σ : Type} {S : Surroundings σ} {s s' s'' : σ} {es : List Exchange}

-- A program runs from one state to another, by the given exchanges and to the given result.
inductive Runs (S : Surroundings σ) : Program α → σ → List Exchange → Except Failure α → σ → Prop
  | done {a s} : Runs S (.done a) s [] (.ok a) s
  | fail {e s} : Runs S (.fail e) s [] (.error e) s
  | ask {r next s es o s'} :
    Runs S (next (S.answer r s).1) (S.answer r s).2 es o s' →
    Runs S (.ask r next) s (⟨r, (S.answer r s).1⟩ :: es) o s'

-- Runs a program and keeps the exchanges.
def trace (S : Surroundings σ) : Program α → σ → List Exchange × Except Failure α × σ
  | .done a, s => ([], .ok a, s)
  | .fail e, s => ([], .error e, s)
  | .ask r next, s =>
    let (es, end') := S.trace (next (S.answer r s).1) (S.answer r s).2
    (⟨r, (S.answer r s).1⟩ :: es, end')

-- Every program runs to its end.
theorem runs_trace (S : Surroundings σ) (t : Program α) (s : σ) :
    S.Runs t s (S.trace t s).1 (S.trace t s).2.1 (S.trace t s).2.2 := by
  induction t generalizing s
  case done          => exact .done
  case fail          => exact .fail
  case ask r next hi => exact .ask (hi _ _)

-- The state that requests lead to, one after the other.
def after (S : Surroundings σ) (s : σ) (es : List Exchange) : σ :=
  es.foldl (fun s e => (S.answer e.request s).2) s

@[simp]
theorem after_nil : S.after s [] = s := rfl

@[simp]
theorem after_cons {e : Exchange} : S.after s (e :: es) = S.after (S.answer e.request s).2 es := rfl

@[simp]
theorem after_append {before rest : List Exchange} : S.after s (before ++ rest) = S.after (S.after s before) rest :=
  List.foldl_append

namespace Runs

variable {t : Program α} {o : Except Failure α}

-- A run ends in the state that its requests lead to.
theorem after_eq (h : S.Runs t s es o s') : S.after s es = s' := by
  induction h
  case done     => rfl
  case fail     => rfl
  case ask _ hi => exact hi

theorem run_eq (h : S.Runs t s es o s') : t.run S.answer s = (o, s') := by
  induction h
  case done     => rfl
  case fail     => rfl
  case ask _ hi => exact hi

theorem of_run_eq (h : t.run S.answer s = (o, s')) : S.Runs t s (S.trace t s).1 o s' := by
  have ht := S.runs_trace t s
  obtain ⟨ho, hs⟩ := Prod.mk.inj (ht.run_eq.symm.trans h)
  rwa [ho, hs] at ht

-- What leads to a result and a state is what comes of a run.
theorem leads {P : α → σ → Prop} {E : σ → Prop} (h : S.Runs t s es o s') (hl : S.Leads t s P E) :
    (∃ a, o = .ok a ∧ P a s') ∨ (∃ e, o = .error e ∧ E s') := by
  unfold Leads at hl
  rw [h.run_eq] at hl
  cases o
  case ok a    => exact .inl ⟨a, rfl, hl⟩
  case error e => exact .inr ⟨e, rfl, hl⟩

theorem done_inv {a : α} (h : S.Runs (.done a) s es o s') : es = [] ∧ o = .ok a ∧ s' = s := by
  cases h
  exact ⟨rfl, rfl, rfl⟩

theorem fail_inv {e : Failure} (h : S.Runs (.fail e : Program α) s es o s') :
    es = [] ∧ o = .error e ∧ s' = s := by
  cases h
  exact ⟨rfl, rfl, rfl⟩

theorem ask_inv {r : Request} {next : r.Reply → Program α} (h : S.Runs (.ask r next) s es o s') :
    ∃ rest, es = ⟨r, (S.answer r s).1⟩ :: rest ∧
      S.Runs (next (S.answer r s).1) (S.answer r s).2 rest o s' := by
  cases h
  case ask h => exact ⟨_, rfl, h⟩

-- A run goes on after its first part, unless that fails.
theorem bind_inv {f : α → Program β} {o : Except Failure β} (h : S.Runs (t >>= f) s es o s') :
    (∃ e, o = .error e ∧ S.Runs t s es (.error e) s') ∨
    ∃ a s₁ before rest, es = before ++ rest ∧ S.Runs t s before (.ok a) s₁ ∧
      S.Runs (f a) s₁ rest o s' := by
  induction t generalizing s es
  case done a => exact .inr ⟨a, s, [], es, rfl, .done, h⟩
  case fail e =>
    have ⟨he, ho, hs⟩ := fail_inv h
    subst he ho hs
    exact .inl ⟨e, rfl, .fail⟩
  case ask r next hi =>
    have ⟨rest, he, hr⟩ := ask_inv h
    rw [he]
    rcases hi _ hr with ⟨e, ho, ht⟩ | ⟨a, s₁, before, rest, he, ht, hf⟩
    case inl => exact .inl ⟨e, ho, .ask ht⟩
    case inr => exact .inr ⟨a, s₁, _ :: before, rest, by rw [he]; rfl, .ask ht, hf⟩

-- A part of a program that does not fail.
theorem bind_ok_inv {f : α → Program β} {b : β} (h : S.Runs (t >>= f) s es (.ok b) s') :
    ∃ a s₁ before rest, es = before ++ rest ∧ S.Runs t s before (.ok a) s₁ ∧
      S.Runs (f a) s₁ rest (.ok b) s' := by
  rcases h.bind_inv with ⟨_, he, _⟩ | h
  case inl => cases he
  case inr => exact h

theorem outcome_inv {o : Except Failure (Except Failure α)} (h : S.Runs t.outcome s es o s') :
    ∃ found, o = .ok found ∧ S.Runs t s es found s' := by
  induction t generalizing s es
  case done a =>
    have ⟨he, ho, hs⟩ := done_inv h
    subst he ho hs
    exact ⟨_, rfl, .done⟩
  case fail e =>
    have ⟨he, ho, hs⟩ := done_inv h
    subst he ho hs
    exact ⟨_, rfl, .fail⟩
  case ask r next hi =>
    have ⟨rest, he, hr⟩ := ask_inv h
    have ⟨found, ho, ht⟩ := hi _ hr
    exact ⟨found, ho, he ▸ .ask ht⟩

/-! ## Single requests -/

variable {β : Type} {p : Except Failure β}

theorem log_inv {level : Log.Level} {logger message : String} {o : Except Failure Unit}
    (h : S.Runs (Program.log level logger message) s es o s') :
    (∃ r : Log.Record, es = [⟨.log r, ()⟩]) ∧ o = .ok () ∧ S.scene s' = S.scene s := by
  have ⟨_, he, h⟩ := h.ask_inv
  have ⟨hn, ho, hs⟩ := h.done_inv
  exact ⟨⟨_, hn ▸ he⟩, ho, hs ▸ S.log⟩

-- Requests that cannot fail are followed by the rest of the program.
theorem log_bind_inv {level : Log.Level} {logger message : String} {f : Unit → Program β}
    (h : S.Runs (Program.log level logger message >>= f) s es p s') :
    ∃ (r : Log.Record) (rest : List Exchange) (s₁ : σ), es = ⟨.log r, ()⟩ :: rest ∧
      S.scene s₁ = S.scene s ∧ S.Runs (f ()) s₁ rest p s' :=
  have ⟨rest, he, h⟩ := h.ask_inv
  ⟨_, rest, _, he, S.log, h⟩

theorem setSession_bind_inv {x : Session} {f : Unit → Program β}
    (h : S.Runs (Program.setSession x >>= f) s es p s') :
    ∃ (rest : List Exchange) (s₁ : σ), es = ⟨.setSession x, ()⟩ :: rest ∧
      S.scene s₁ = { S.scene s with session := some x } ∧ S.Runs (f ()) s₁ rest p s' :=
  have ⟨rest, he, h⟩ := h.ask_inv
  ⟨rest, _, he, S.setSession, h⟩

theorem session_bind_inv {x : Session} {f : Session → Program β}
    (hx : (S.scene s).session = some x) (h : S.Runs (Program.session >>= f) s es p s') :
    ∃ (rest : List Exchange) (s₁ : σ), es = ⟨.session, some x⟩ :: rest ∧
      S.scene s₁ = S.scene s ∧ S.Runs (f x) s₁ rest p s' := by
  have ⟨rest, he, h⟩ := h.ask_inv
  have ⟨hr, hs⟩ := Prod.mk.inj (S.session (s := s))
  rw [hr, hx] at he h
  exact ⟨rest, _, he, hs, h⟩

theorem session_ok_inv {x : Session} (h : S.Runs Program.session s es (.ok x) s') :
    es = [⟨.session, some x⟩] ∧ (S.scene s).session = some x ∧ S.scene s' = S.scene s := by
  have ⟨rest, he, h⟩ := h.ask_inv
  have ⟨hr, hs⟩ := Prod.mk.inj (S.session (s := s))
  rw [hr] at he h
  cases hx : (S.scene s).session <;> rw [hx] at he h
  case none => cases h.fail_inv.right.left
  case some =>
    have ⟨hn, ho, hs'⟩ := h.done_inv
    cases ho
    exact ⟨hn ▸ he, rfl, hs' ▸ hs⟩

-- The time is in UTC and within the calendar.
theorem now_inv {o : Except Failure Moment} (h : S.Runs Program.now s es o s') :
    (∃ reply, es = [⟨.now, reply⟩]) ∧ S.scene s' = S.scene s ∧
      (o = .ok (S.clock s).inUtc ∧ (S.clock s).inUtc.InRange ∨ o = .error .timeOutOfRange) := by
  have ⟨_, he, h⟩ := h.ask_inv
  have ⟨hr, hs⟩ := Prod.mk.inj (S.now (s := s))
  by_cases hc : (S.clock s).inUtc.InRange
  case pos =>
    rw [if_pos hc] at hr
    rw [hr] at he h
    have ⟨hn, ho, hs'⟩ := h.done_inv
    exact ⟨⟨_, hn ▸ he⟩, hs' ▸ hs, .inl ⟨ho, hc⟩⟩
  case neg =>
    rw [if_neg hc] at hr
    rw [hr] at he h
    have ⟨hn, ho, hs'⟩ := h.fail_inv
    exact ⟨⟨_, hn ▸ he⟩, hs' ▸ hs, .inr ho⟩

-- The library performs what it is asked for.
theorem library_inv {c : Library.Command} {o : Except Failure c.Reply} (hc : ∀ u f, c ≠ .find u f)
    (h : S.Runs (Program.library c) s es o s') :
    es = [⟨.library c, ((S.scene s).library.perform (S.clock s) c).1⟩] ∧
      o = ((S.scene s).library.perform (S.clock s) c).1.mapError .library ∧
      S.scene s' =
        { S.scene s with library := ((S.scene s).library.perform (S.clock s) c).2 } := by
  have ⟨_, he, h⟩ := h.ask_inv
  have ⟨hr, hs⟩ := Prod.mk.inj (S.library (s := s) hc)
  rw [hr] at he h
  cases ho : ((S.scene s).library.perform (S.clock s) c).1 <;> rw [ho] at he h
  case ok a =>
    have ⟨hn, ho, hs'⟩ := h.done_inv
    exact ⟨hn ▸ he, ho, hs' ▸ hs⟩
  case error e =>
    have ⟨hn, ho, hs'⟩ := h.fail_inv
    exact ⟨hn ▸ he, ho, hs' ▸ hs⟩

theorem library_ok_inv {c : Library.Command} {a : c.Reply} {l : Library.Store}
    {o : Except Failure c.Reply} (hc : ∀ u f, c ≠ .find u f)
    (hp : (S.scene s).library.perform (S.clock s) c = (.ok a, l))
    (h : S.Runs (Program.library c) s es o s') :
    o = .ok a ∧ S.scene s' = { S.scene s with library := l } := by
  have ⟨_, ho, hs⟩ := h.library_inv hc
  rw [hp] at ho hs
  exact ⟨ho, hs⟩

-- What the library has performed, if it has not failed.
theorem library_ok_eq {c : Library.Command} {a : c.Reply} (hc : ∀ u f, c ≠ .find u f)
    (h : S.Runs (Program.library c) s es (.ok a) s') :
    ∃ l, (S.scene s).library.perform (S.clock s) c = (.ok a, l) ∧ es = [⟨.library c, .ok a⟩] ∧
      S.scene s' = { S.scene s with library := l } := by
  obtain ⟨he, ho, hs⟩ := h.library_inv hc
  rcases hp : (S.scene s).library.perform (S.clock s) c with ⟨_ | b, l⟩ <;> rw [hp] at he ho hs <;> cases ho
  exact ⟨l, rfl, he, hs⟩

/-! ## All requests of a run -/

variable {P : Request → Prop}

-- What each request of a program keeps holds at the end of a run.
theorem keeps {I : σ → Prop} (h : S.Runs t s es o s') (ht : t.Asks P)
    (hi : ∀ {r s}, P r → I s → I (S.answer r s).2) (hs : I s) : I s' := by
  induction h
  case done => exact hs
  case fail => exact hs
  case ask hr =>
    have ⟨hp, hn⟩ := ht.ask_inv
    exact hr (hn _) (hi hp hs)

-- A promise about the states that the surroundings come to is kept to the end.
theorem good {G : σ → Prop} (h : S.Runs t s es o s') (hk : S.Keeps G) (hg : G s) : G s' := by
  induction h
  case done      => exact hg
  case fail      => exact hg
  case ask hi    => exact hi (hk _ _ hg)

theorem forall_mem (h : S.Runs t s es o s') (ht : t.Asks P) : ∀ e ∈ es, P e.request := by
  induction h
  case done => exact List.forall_mem_nil _
  case fail => exact List.forall_mem_nil _
  case ask hr =>
    have ⟨hp, hn⟩ := ht.ask_inv
    exact List.forall_mem_cons.mpr ⟨hp, hr (hn _)⟩

end Runs

-- A program that keeps what holds of the scene, whatever it is answered.
def Preserves (S : Surroundings σ) (J : Scene → Prop) (t : Program α) : Prop :=
  ∀ s es o s', S.Runs t s es o s' → J (S.scene s) → J (S.scene s')

namespace Preserves

variable {J : Scene → Prop} {t : Program α}

theorem done {a : α} : S.Preserves J (.done a) := by
  intro _ _ _ _ h hj
  rwa [h.done_inv.right.right]

theorem fail {e : Failure} : S.Preserves J (.fail e : Program α) := by
  intro _ _ _ _ h hj
  rwa [h.fail_inv.right.right]

theorem ask {r : Request} {next : r.Reply → Program α}
    (hr : ∀ s, J (S.scene s) → J (S.scene (S.answer r s).2)) (hn : ∀ reply, S.Preserves J (next reply)) :
    S.Preserves J (.ask r next) := by
  intro s _ _ _ h hj
  have ⟨_, _, h⟩ := h.ask_inv
  exact hn _ _ _ _ _ h (hr s hj)

theorem bind {f : α → Program β} (ht : S.Preserves J t) (hf : ∀ a, S.Preserves J (f a)) :
    S.Preserves J (t >>= f) := by
  intro _ _ _ _ h hj
  rcases h.bind_inv with ⟨_, _, h⟩ | ⟨a, _, _, _, _, h, h'⟩
  case inl => exact ht _ _ _ _ h hj
  case inr => exact hf a _ _ _ _ h' (ht _ _ _ _ h hj)

-- What is known of the results of the first part may be made use of.
theorem bind_leads {P : α → Scene → Prop} {f : α → Program β}
    (ht : ∀ s, J (S.scene s) → S.Leads t s (fun a s' => P a (S.scene s')) fun s' => J (S.scene s'))
    (hf : ∀ a s es o s', S.Runs (f a) s es o s' → P a (S.scene s) → J (S.scene s')) :
    S.Preserves J (t >>= f) := by
  intro s _ _ _ h hj
  rcases h.bind_inv with ⟨_, _, h⟩ | ⟨a, _, _, _, _, h, h'⟩ <;>
    rcases h.leads (ht s hj) with ⟨_, ho, hp⟩ | ⟨_, ho, he⟩ <;> cases ho
  case inl.inr => exact he
  case inr.inl => exact hf a _ _ _ _ h' hp

theorem outcome (h : S.Preserves J t) : S.Preserves J t.outcome := by
  intro _ _ _ _ ho hj
  have ⟨_, _, ht⟩ := ho.outcome_inv
  exact h _ _ _ _ ht hj

theorem ofExcept {found : Except Failure α} : S.Preserves J (.ofExcept found) := by
  cases found
  case ok    => exact done
  case error => exact fail

theorem log {level : Log.Level} {logger message : String} :
    S.Preserves J (Program.log level logger message) :=
  ask (fun _ hj => by rwa [S.log]) fun _ => done

theorem session : S.Preserves J Program.session := by
  refine ask (fun s hj => ?_) fun reply => ?_
  · rwa [(Prod.mk.inj S.session).right]
  · cases reply
    case none => exact fail
    case some => exact done

-- What is known of the session in use may be made use of.
theorem session_bind {P : Session → Prop} {f : Session → Program α}
    (hp : ∀ {a x}, J a → a.session = some x → P x) (hf : ∀ x, P x → S.Preserves J (f x)) :
    S.Preserves J (Program.session >>= f) := by
  intro s _ _ _ h hj
  cases hx : (S.scene s).session
  case none =>
    have ⟨_, _, h⟩ := h.ask_inv
    have ⟨hr, hs⟩ := Prod.mk.inj (S.session (s := s))
    rw [hr, hx] at h
    rwa [h.fail_inv.right.right, hs]
  case some x =>
    have ⟨_, _, _, hs, h⟩ := h.session_bind_inv hx
    exact hf x (hp hj hx) _ _ _ _ h (hs ▸ hj)

theorem library {c : Library.Command} (hc : ∀ u f, c ≠ .find u f)
    (hp : ∀ a now, J a → J { a with library := (a.library.perform now c).2 }) :
    S.Preserves J (Program.library c) := by
  refine ask (fun s hj => ?_) fun reply => ?_
  · rw [(Prod.mk.inj (S.library hc)).right]
    exact hp _ _ hj
  · cases reply
    case error => exact fail
    case ok    => exact done

end Preserves

end Surroundings

end LabelPlaylists
