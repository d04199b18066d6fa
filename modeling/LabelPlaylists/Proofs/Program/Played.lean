import LabelPlaylists.Proofs.Program.Parallel
import Mathlib.Data.List.Forall2

namespace LabelPlaylists

-- Requests to log a line.
def Request.IsLine (r : Request) : Prop := ∃ level logger message, r = .log { level, logger, message }

namespace Program

variable {t : Program α} {es : List Exchange} {o : Except Failure α}

-- A program takes a course to a result if it is given the replies that stand in it, whoever gives them.
inductive Plays : Program α → List Exchange → Except Failure α → Prop
  | done {a} : Plays (.done a) [] (.ok a)
  | fail {e} : Plays (.fail e) [] (.error e)
  | ask {r next reply es o} : Plays (next reply) es o → Plays (.ask r next) (⟨r, reply⟩ :: es) o

namespace Plays

theorem done_inv {a : α} (h : (Program.done a).Plays es o) : es = [] ∧ o = .ok a := by
  cases h
  exact ⟨rfl, rfl⟩

theorem fail_inv {e : Failure} (h : (Program.fail e : Program α).Plays es o) : es = [] ∧ o = .error e := by
  cases h
  exact ⟨rfl, rfl⟩

theorem ask_inv {r : Request} {next : r.Reply → Program α} (h : (Program.ask r next).Plays es o) :
    ∃ reply rest, es = ⟨r, reply⟩ :: rest ∧ (next reply).Plays rest o := by
  cases h
  case ask h => exact ⟨_, _, rfl, h⟩

-- A program goes on after its first part, unless that fails.
theorem bind_inv {f : α → Program β} {o : Except Failure β} (h : (t >>= f).Plays es o) :
    (∃ e, o = .error e ∧ t.Plays es (.error e)) ∨
      ∃ a before rest, es = before ++ rest ∧ t.Plays before (.ok a) ∧ (f a).Plays rest o := by
  induction t generalizing es
  case done a => exact .inr ⟨a, [], es, rfl, .done, h⟩
  case fail e =>
    have ⟨he, ho⟩ := fail_inv h
    subst he ho
    exact .inl ⟨e, rfl, .fail⟩
  case ask r next hi =>
    have ⟨_, rest, he, h⟩ := ask_inv h
    rw [he]
    rcases hi _ h with ⟨e, ho, ht⟩ | ⟨a, before, rest, he, ht, hf⟩
    case inl => exact .inl ⟨e, ho, .ask ht⟩
    case inr => exact .inr ⟨a, _ :: before, rest, by rw [he]; rfl, .ask ht, hf⟩

-- A part of a program that does not fail.
theorem bind_ok_inv {f : α → Program β} {b : β} (h : (t >>= f).Plays es (.ok b)) :
    ∃ a before rest, es = before ++ rest ∧ t.Plays before (.ok a) ∧ (f a).Plays rest (.ok b) := by
  rcases h.bind_inv with ⟨_, he, _⟩ | h
  case inl => cases he
  case inr => exact h

theorem outcome_inv {o : Except Failure (Except Failure α)} (h : t.outcome.Plays es o) :
    ∃ found, o = .ok found ∧ t.Plays es found := by
  induction t generalizing es
  case done a =>
    have ⟨he, ho⟩ := done_inv h
    subst he ho
    exact ⟨_, rfl, .done⟩
  case fail e =>
    have ⟨he, ho⟩ := done_inv h
    subst he ho
    exact ⟨_, rfl, .fail⟩
  case ask r next hi =>
    have ⟨_, rest, he, h⟩ := ask_inv h
    have ⟨found, ho, ht⟩ := hi _ h
    exact ⟨found, ho, he ▸ .ask ht⟩

theorem forall_mem {P : Request → Prop} (h : t.Plays es o) (ht : t.Asks P) : ∀ e ∈ es, P e.request := by
  induction h
  case done => exact List.forall_mem_nil _
  case fail => exact List.forall_mem_nil _
  case ask hr =>
    have ⟨hp, hn⟩ := ht.ask_inv
    exact List.forall_mem_cons.mpr ⟨hp, hr (hn _)⟩

-- What the first part of a program does not ask for is exchanged after it.
theorem mem_bind_inv {P : Request → Prop} {f : α → Program β} {o : Except Failure β} {e : Exchange}
    (h : (t >>= f).Plays es o) (ht : t.Asks P) (hm : e ∈ es) (hn : ¬P e.request) :
    ∃ a before rest, es = before ++ rest ∧ (f a).Plays rest o ∧ e ∈ rest := by
  rcases h.bind_inv with ⟨_, _, h₁⟩ | ⟨a, before, rest, he, h₁, h⟩
  case inl => exact absurd (h₁.forall_mem ht e hm) hn
  case inr =>
    refine ⟨a, before, rest, he, h, ?_⟩
    exact (List.mem_append.mp (he ▸ hm)).resolve_left fun hm => hn (h₁.forall_mem ht e hm)

theorem called_eq_nil (h : t.Plays es o) (ht : t.Asks Request.IsAside) : called es = [] :=
  LabelPlaylists.called_eq_nil fun e he => e.call?_eq_none (h.forall_mem ht e he)

-- A call is made by a request for it.
theorem forall_mem_called {P : Request → Prop} (h : t.Plays es o) (ht : t.Asks P) :
    ∀ c ∈ called es, ∃ token, P (.call token c.1) := by
  intro c hc
  have ⟨e, he, hc⟩ := List.mem_filterMap.mp hc
  have ⟨token, hr⟩ := Exchange.call?_eq_some hc
  exact ⟨token, hr ▸ h.forall_mem ht e he⟩

/-! ## Single requests -/

theorem log_bind_inv {level : Log.Level} {logger message : String} {f : Unit → Program α}
    (h : (Program.log level logger message >>= f).Plays es o) :
    ∃ rest, es = ⟨.log { level, logger, message }, ()⟩ :: rest ∧ (f ()).Plays rest o :=
  have ⟨_, rest, he, h⟩ := h.ask_inv
  ⟨rest, he, h⟩

theorem session_bind_ok_inv {a : α} {f : Session → Program α} (h : (Program.session >>= f).Plays es (.ok a)) :
    ∃ x rest, es = ⟨.session, some x⟩ :: rest ∧ (f x).Plays rest (.ok a) := by
  have ⟨reply, rest, he, h⟩ := h.ask_inv
  cases reply
  case none   => cases h.fail_inv.right
  case some x => exact ⟨x, rest, he, h⟩

theorem library_inv {c : Library.Command} {o : Except Failure c.Reply} (h : (Program.library c).Plays es o) :
    ∃ reply, es = [⟨.library c, reply⟩] ∧ o = reply.mapError .library := by
  have ⟨reply, _, he, h⟩ := h.ask_inv
  cases reply
  case error e =>
    have ⟨hn, ho⟩ := h.fail_inv
    exact ⟨.error e, hn ▸ he, ho⟩
  case ok a =>
    have ⟨hn, ho⟩ := h.done_inv
    exact ⟨.ok a, hn ▸ he, ho⟩

theorem library_ok_inv {c : Library.Command} {a : c.Reply} (h : (Program.library c).Plays es (.ok a)) :
    es = [⟨.library c, .ok a⟩] := by
  have ⟨reply, he, ho⟩ := h.library_inv
  cases reply <;> cases ho
  exact he

-- A call that comes to a result has been made once, and that is what the reply to it tells.
theorem call_ok_inv {c : Spotify.Call} {schema : Spotify.Schema α} {a : α}
    (h : (Account.Service.call c schema).Plays es (.ok a)) :
    ∃ reply, called es = [(c, reply)] ∧ told schema reply = .ok a := by
  have ⟨token, before, rest, he, h₁, h⟩ := h.bind_ok_inv
  have ⟨reply, more, he', h⟩ := h.ask_inv
  suffices hs : more = [] ∧ told schema reply = .ok a by
    refine ⟨reply, ?_, hs.right⟩
    rw [he, he', hs.left, called_append, h₁.called_eq_nil (Account.asks_validToken Request.covers_aside)]
    rfl
  cases reply
  case error trouble =>
    have ⟨_, _, _, _, _, h⟩ := h.bind_ok_inv
    cases h.fail_inv.right
  case ok body =>
    dsimp only at h
    split at h
    case h_1 b hb =>
      obtain ⟨hn, ho⟩ := h.done_inv
      cases ho
      exact ⟨hn, by rw [told, hb]; rfl⟩
    case h_2 =>
      obtain ⟨_, _, h⟩ := h.log_bind_inv
      cases h.fail_inv.right

end Plays

-- The work on an item, with what has been exchanged in its course and what it has come to.
structure Work (α β : Type) where
  item      : α
  exchanges : List Exchange
  result    : Except Failure β

-- The work on an item has come to a result.
structure Work.Yields (f : α → Program β) (w : Work α β) (r : α × β) : Prop where
  item   : w.item = r.1
  result : w.result = .ok r.2
  plays  : (f r.1).Plays w.exchanges (.ok r.2)

variable {f : α → Program β} {items : List α} {workers : Int} {description : String} {shown : α → String}

-- What the work on an item has come to.
def Work.found (w : Work α β) : α × Except Failure β := (w.item, w.result)

-- What is reported of items: their results, or the first failure.
def reported (found : List (α × Except Failure β)) : Except Failure (List (α × β)) :=
  match (split found).2 with
  | []          => .ok (split found).1
  | (_, e) :: _ => .error e

-- The line that a further failure leaves in the log.
def failureLine (description : String) (shown : α → String) (r : α × Failure) : Exchange where
  request := .log {
    level   := .debug
    logger  := "playlist_gen.utils"
    message := description ++ ": additional failure for " ++ shown r.1 ++ ": " ++ r.2.message
  }
  reply   := ()

-- The lines that are left when all items have been worked on.
def failureLines (description : String) (shown : α → String) (found : List (α × Except Failure β)) : List Exchange :=
  (split found).2.tail.map (failureLine description shown)

-- Nothing has failed before the first of the failures.
theorem split_eq_cons {found : List (α × Except Failure β)} {a : α} {e : Failure} {others : List (α × Failure)}
    (h : (split found).2 = (a, e) :: others) :
    ∃ before after, found = before ++ (a, .error e) :: after ∧ ∀ r ∈ before, ∃ b, r.2 = .ok b := by
  fun_induction split found
  case case1 => cases h
  case case2 a' b rest hr =>
    obtain ⟨before, after, hf, hok⟩ := hr h
    exact ⟨(a', .ok b) :: before, after, congrArg _ hf, List.forall_mem_cons.mpr ⟨⟨b, rfl⟩, hok⟩⟩
  case case3 rest _ =>
    cases h
    exact ⟨[], rest, rfl, List.forall_mem_nil _⟩

theorem forall_mem_failureLines {found : List (α × Except Failure β)} :
    ∀ e ∈ failureLines description shown found, e.request.IsLine :=
  List.forall_mem_map.mpr fun _ _ => ⟨_, _, _, rfl⟩

-- Either there is a result for every item, or what is reported is the first failure.
theorem reported_inv (works : List (Work α β)) :
    (∃ results, reported (works.map Work.found) = .ok results ∧ (split (works.map Work.found)).2 = [] ∧
        works.map Work.found = results.map fun r => (r.1, .ok r.2)) ∨
      ∃ before w after e, reported (works.map Work.found) = .error e ∧ works = before ++ w :: after ∧
        w.result = .error e ∧ ∀ v ∈ before, ∃ b, v.result = .ok b := by
  unfold reported
  split
  case h_1 hf => exact .inl ⟨_, rfl, hf, eq_results_of_split hf⟩
  case h_2 a e others hf =>
    have ⟨before, after, hfound, hok⟩ := split_eq_cons hf
    have ⟨ws, _, hw, hws, hws'⟩ := List.map_eq_append_iff.mp hfound
    have ⟨w, more, hw', hwe, _⟩ := List.map_eq_cons_iff.mp hws'
    refine .inr ⟨ws, w, more, e, rfl, by rw [hw, hw'], congrArg Prod.snd hwe, fun v hv => ?_⟩
    exact hok v.found (hws ▸ List.mem_map_of_mem hv)

namespace Plays

theorem outcomes_inv {o : Except Failure (List (α × Except Failure β))} (h : (outcomes f items).Plays es o) :
    ∃ works : List (Work α β), works.map (·.item) = items ∧ es = works.flatMap (·.exchanges) ∧
      (∀ w ∈ works, (f w.item).Plays w.exchanges w.result) ∧ o = .ok (works.map fun w => (w.item, w.result)) := by
  induction items generalizing es o
  case nil =>
    have ⟨he, ho⟩ := h.done_inv
    exact ⟨[], rfl, he, List.forall_mem_nil _, ho⟩
  case cons a rest hr =>
    rcases h.bind_inv with ⟨_, _, h₁⟩ | ⟨found, before, _, he, h₁, h⟩ <;>
      have ⟨_, ho₁, h₁⟩ := h₁.outcome_inv <;> cases ho₁
    rcases h.bind_inv with ⟨_, _, h₂⟩ | ⟨_, _, _, he₂, h₂, h⟩ <;>
      have ⟨works, hi, hes, hworks, ho₂⟩ := hr h₂ <;> cases ho₂
    have ⟨hn, ho⟩ := h.done_inv
    refine ⟨⟨a, before, found⟩ :: works, congrArg (a :: ·) hi, ?_, List.forall_mem_cons.mpr ⟨h₁, hworks⟩, ho⟩
    rw [he, he₂, hes, hn, List.append_nil]
    rfl

-- Each failure is logged in a line, and nothing goes wrong with that.
theorem logFailures_inv {failures : List (α × Failure)} {o : Except Failure Unit}
    (h : (logFailures description shown failures).Plays es o) :
    es = failures.map (failureLine description shown) ∧ o = .ok () := by
  induction failures generalizing es
  case nil => exact h.done_inv
  case cons r _ hr =>
    have ⟨_, he, h⟩ := h.log_bind_inv
    have ⟨hes, ho⟩ := hr h
    exact ⟨he.trans (congrArg (failureLine description shown r :: ·) hes), ho⟩

-- All items are worked on in turn. What is left then is to log all failures but the first, which is reported.
theorem inParallel_course {o : Except Failure (List (α × β))}
    (h : (inParallel workers description shown f items).Plays es o) :
    (workers < 1 ∧ es = [] ∧ o = .error .noWorkers) ∨
      ∃ works : List (Work α β), works.map (·.item) = items ∧
        (∀ w ∈ works, (f w.item).Plays w.exchanges w.result) ∧ o = reported (works.map Work.found) ∧
        es = works.flatMap (·.exchanges) ++ failureLines description shown (works.map Work.found) := by
  unfold inParallel at h
  split at h
  case isTrue hn =>
    have ⟨he, ho⟩ := h.done_inv
    rw [List.isEmpty_iff.mp hn, he]
    exact .inr ⟨[], rfl, List.forall_mem_nil _, ho, rfl⟩
  case isFalse =>
    split at h
    case isTrue hw => exact .inl ⟨hw, h.fail_inv⟩
    case isFalse =>
      rcases h.bind_inv with ⟨_, _, h₁⟩ | ⟨_, _, rest, he, h₁, h⟩ <;>
        have ⟨works, hi, hes, hworks, ho₁⟩ := h₁.outcomes_inv <;> cases ho₁
      refine .inr ⟨works, hi, hworks, ?_⟩
      subst hes
      rw [he]
      show _ = reported (works.map fun w => (w.item, w.result)) ∧
        _ = _ ++ failureLines description shown (works.map fun w => (w.item, w.result))
      unfold reported failureLines
      dsimp only at h
      split at h
      case h_1 hf =>
        have ⟨hn, ho⟩ := h.done_inv
        rw [hf, hn]
        exact ⟨ho, rfl⟩
      case h_2 a e others hf =>
        rw [hf]
        rcases h.bind_inv with ⟨_, _, h₁⟩ | ⟨_, _, _, he', h₁, h⟩ <;>
          have ⟨hes, ho₁⟩ := h₁.logFailures_inv <;> cases ho₁
        have ⟨hn, ho⟩ := h.fail_inv
        rw [he', hn, hes, List.append_nil]
        exact ⟨ho, rfl⟩

-- If nothing fails there are results, otherwise the first failure is reported.
theorem inParallel_inv {o : Except Failure (List (α × β))}
    (h : (inParallel workers description shown f items).Plays es o) :
    (es = [] ∧ o = .error .noWorkers) ∨
      ∃ (works : List (Work α β)) (rest : List Exchange), works.map (·.item) = items ∧
        es = works.flatMap (·.exchanges) ++ rest ∧ (∀ w ∈ works, (f w.item).Plays w.exchanges w.result) ∧
        (∀ e ∈ rest, e.request.IsLine) ∧
        ((∃ results, o = .ok results ∧ rest = [] ∧
            works.map (fun w => (w.item, w.result)) = results.map fun r => (r.1, .ok r.2)) ∨
          ∃ before w after e, o = .error e ∧ works = before ++ w :: after ∧ w.result = .error e ∧
            ∀ v ∈ before, ∃ b, v.result = .ok b) := by
  rcases h.inParallel_course with ⟨_, h⟩ | ⟨works, hi, hworks, ho, he⟩
  case inl => exact .inl h
  case inr =>
    refine .inr ⟨works, _, hi, he, hworks, forall_mem_failureLines, ?_⟩
    refine (reported_inv works).imp ?_ ?_
    case refine_1 =>
      intro ⟨results, hr, hf, hmap⟩
      exact ⟨results, ho.trans hr, by rw [failureLines, hf]; rfl, hmap⟩
    case refine_2 =>
      intro ⟨before, w, after, e, hr, hw⟩
      exact ⟨before, w, after, e, ho.trans hr, hw⟩

-- What comes to results is work on one item after the other, each with its result.
theorem inParallel_ok_inv {results : List (α × β)}
    (h : (inParallel workers description shown f items).Plays es (.ok results)) :
    ∃ works : List (Work α β), works.map (·.item) = items ∧ es = works.flatMap (·.exchanges) ∧
      List.Forall₂ (Work.Yields f) works results := by
  rcases h.inParallel_inv with ⟨_, ho⟩ | ⟨works, rest, hi, he, hplays, _, hor⟩
  case inl => cases ho
  rcases hor with ⟨_, ho, hn, hmap⟩ | ⟨_, _, _, _, ho, _⟩ <;> cases ho
  rw [hn, List.append_nil] at he
  refine ⟨works, hi, he, ?_⟩
  have hall : List.Forall₂ (fun w r => (w.item, w.result) = (r.1, .ok r.2)) works results := by
    rw [← List.forall₂_eq_eq_eq] at hmap
    exact List.forall₂_map_left_iff.mp (List.forall₂_map_right_iff.mp hmap)
  clear h hmap he hi
  induction hall
  case nil => exact .nil
  case cons hr _ hi =>
    have ⟨hw, hplays⟩ := List.forall_mem_cons.mp hplays
    have ⟨hitem, hresult⟩ := Prod.mk.inj hr
    exact .cons ⟨hitem, hresult, hitem ▸ hresult ▸ hw⟩ (hi hplays)

end Plays

end Program

-- A program that runs takes the course of the run.
theorem Surroundings.Runs.plays {σ : Type} {S : Surroundings σ} {s s' : σ} {t : Program α} {es : List Exchange}
    {o : Except Failure α} (h : S.Runs t s es o s') : t.Plays es o := by
  induction h
  case done        => exact .done
  case fail        => exact .fail
  case ask _ hr    => exact .ask hr

end LabelPlaylists
