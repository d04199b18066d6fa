import Mathlib.Data.DFinsupp.WellFounded
import Mathlib.Logic.Function.Basic
import LabelPlaylists.Proofs.Program.Run

namespace LabelPlaylists

-- Whoever else answers programs that share a library, and the times at which they may be run. Nothing
-- is said about how the replies to one program are related.
structure Outside where
  times   : Moment → Prop
  replies : (r : Request) → r.Reply → Prop

def Outside.still (m : Moment) (replyTo : (r : Request) → r.Reply) : Outside where
  times       := (· = m)
  replies r x := x = replyTo r

def Request.IsOutside : Request → Prop
  | .library _ | .now => False
  | _                 => True

-- A library that programs share, and what each of them has asked for so far.
structure Shared (ι : Type) where
  library : Library.Store
  past    : ι → List Exchange

def Program.hasEnded : Program α → Bool
  | .ask .. => false
  | _       => true

def Program.hasFailed : Program α → Bool
  | .fail _ => true
  | _       => false

theorem Program.hasFailed_iff {t : Program α} : t.hasFailed ↔ ∃ e, t = .fail e := by
  cases t <;> simp [hasFailed]

-- Two programs are run side by side. The requests of each come in their order, but in any order with those
-- of the other one.
inductive Program.Beside : Program α → Program β → Program (α × β) → Prop
  | done {a b} : Beside (.done a) (.done b) (.done (a, b))
  | left {r next t f} : (∀ reply, Beside (next reply) t (f reply)) → Beside (.ask r next) t (.ask r f)
  | right {r next t f} : (∀ reply, Beside t (next reply) (f reply)) → Beside t (.ask r next) (.ask r f)

-- One of them may be run after the other.
theorem Program.beside_outcome (t₁ : Program α) (t₂ : Program β) :
    t₁.outcome.Beside t₂.outcome (t₁.outcome >>= fun a => t₂.outcome >>= fun b => pure (a, b)) := by
  have hend : ∀ o : Except Failure α, (done o).Beside t₂.outcome (t₂.outcome >>= fun b => pure (o, b)) := by
    intro o
    induction t₂
    case done     => exact .done
    case fail     => exact .done
    case ask hi   => exact .right hi
  induction t₁
  case done a   => exact hend (.ok a)
  case fail e   => exact hend (.error e)
  case ask hi   => exact .left hi

-- Either of them.
theorem Program.beside_outcome_swap (t₁ : Program α) (t₂ : Program β) :
    t₁.outcome.Beside t₂.outcome (t₂.outcome >>= fun b => t₁.outcome >>= fun a => pure (a, b)) := by
  have hend : ∀ o : Except Failure β, t₁.outcome.Beside (done o) (t₁.outcome >>= fun a => pure (a, o)) := by
    intro o
    induction t₁
    case done     => exact .done
    case fail     => exact .done
    case ask hi   => exact .left hi
  induction t₂
  case done b   => exact hend (.ok b)
  case fail e   => exact hend (.error e)
  case ask hi   => exact .right hi

section

variable {σ : Type} {answer : (r : Request) → σ → r.Reply × σ} {P Q : Request → Prop} {t₁ : Program α}
variable {t₂ : Program β} {t : Program (α × β)}

-- Requests whose order makes no difference, neither to the replies nor to what they leave behind.
structure Request.Commute (answer : (r : Request) → σ → r.Reply × σ) (r q : Request) : Prop where
  left  : ∀ s, (answer r (answer q s).2).1 = (answer r s).1
  right : ∀ s, (answer q (answer r s).2).1 = (answer q s).1
  both  : ∀ s, (answer q (answer r s).2).2 = (answer r (answer q s).2).2

theorem Request.Commute.symm {r q : Request} (h : r.Commute answer q) : q.Commute answer r :=
  ⟨h.right, h.left, fun s => (h.both s).symm⟩

-- It makes no difference to a program whether a request comes before it or after it.
theorem Program.run_commute {r : Request} {t : Program α} (ht : t.Asks P)
    (hc : ∀ q, P q → q.Commute answer r) (s : σ) :
    (answer r (t.run answer s).2).1 = (answer r s).1 ∧
      t.run answer (answer r s).2 = ((t.run answer s).1, (answer r (t.run answer s).2).2) := by
  induction ht generalizing s
  case done => exact ⟨rfl, rfl⟩
  case fail => exact ⟨rfl, rfl⟩
  case ask q next hq _ hi =>
    have h := hc q hq
    have ⟨hreply, hrun⟩ := hi (answer q s).1 (answer q s).2
    refine ⟨hreply.trans (h.right s), ?_⟩
    show (next (answer q (answer r s).2).1).run answer (answer q (answer r s).2).2 = _
    rw [h.left, ← h.both, hrun]
    rfl

theorem Program.Beside.run_left (h : t₁.Beside t₂ t) (s : σ) : ∃ a s', t₁.run answer s = (.ok a, s') := by
  induction h generalizing s
  case done               => exact ⟨_, s, rfl⟩
  case left r _ _ _ _ hi  => exact hi (answer r s).1 (answer r s).2
  case right r _ _ _ _ hi => exact hi (answer r s).1 s

-- If nothing that one of them asks for matters to the other one, all ways to run programs side by side come
-- to the same.
theorem Program.Beside.run_eq (h : t₁.Beside t₂ t) (h₁ : t₁.Asks P) (h₂ : t₂.Asks Q)
    (hc : ∀ q r, P q → Q r → q.Commute answer r) (s : σ) :
    t.run answer s = (t₁ >>= fun a => t₂ >>= fun b => pure (a, b)).run answer s := by
  induction h generalizing s
  case done              => rfl
  case left r _ _ _ _ hi => exact hi (answer r s).1 (h₁.ask_inv.right _) h₂ (answer r s).2
  case right r next t₁ f hb hi =>
    have ⟨hr, hn⟩ := h₂.ask_inv
    have ⟨hreply, hrun⟩ := Program.run_commute h₁ (fun q hq => hc q r hq hr) s
    obtain ⟨a, s₁, ha⟩ : ∃ a s₁, t₁.run answer s = (.ok a, s₁) := (hb (answer r s).1).run_left s
    rw [ha] at hreply hrun
    refine (hi (answer r s).1 h₁ (hn _) (answer r s).2).trans ?_
    rw [Program.run_bind_ok ha, Program.run_bind_ok hrun]
    show _ = (next (answer r s₁).1 >>= _).run answer (answer r s₁).2
    rw [hreply]

end

variable {ι : Type} [DecidableEq ι] {O : Outside} {i j : ι} {w w' w'' : Shared ι}

namespace Shared

def start (l : Library.Store) : Shared ι := ⟨l, fun _ => []⟩

def record (w : Shared ι) (i : ι) (e : Exchange) : Shared ι :=
  { w with past := Function.update w.past i (w.past i ++ [e]) }

@[simp]
theorem library_record {e : Exchange} : (w.record i e).library = w.library := rfl

@[simp]
theorem past_record_self {e : Exchange} : (w.record i e).past i = w.past i ++ [e] := Function.update_self ..

theorem past_record_of_ne {e : Exchange} (h : j ≠ i) : (w.record i e).past j = w.past j :=
  Function.update_of_ne h ..

-- The reply to a request of one of the programs. An operation of the library is performed as a whole.
inductive Answers (O : Outside) (i : ι) (w : Shared ι) : (r : Request) → r.Reply → Shared ι → Prop
  | library {m c} :
    O.times m →
    Answers O i w (.library c) (w.library.perform m c).1
      (record { w with library := (w.library.perform m c).2 } i ⟨.library c, (w.library.perform m c).1⟩)
  | now {m} :
    O.times m →
    Answers O i w .now (if m.inUtc.InRange then some m.inUtc else none)
      (w.record i ⟨.now, if m.inUtc.InRange then some m.inUtc else none⟩)
  | other {r reply} :
    r.IsOutside → O.replies r reply → Answers O i w r reply (w.record i ⟨r, reply⟩)

namespace Answers

variable {r : Request} {reply : r.Reply} {c : Library.Command}

theorem past_self (h : Answers O i w r reply w') : w'.past i = w.past i ++ [⟨r, reply⟩] := by
  cases h <;> exact past_record_self

theorem mem_past_iff (h : Answers O i w r reply w') {e : Exchange} :
    e ∈ w'.past i ↔ e ∈ w.past i ∨ e = ⟨r, reply⟩ := by
  rw [h.past_self, List.mem_append, List.mem_singleton]

theorem past_of_ne (h : Answers O i w r reply w') (hj : j ≠ i) : w'.past j = w.past j := by
  cases h <;> exact past_record_of_ne hj

theorem past_subset (h : Answers O i w r reply w') (j : ι) : w.past j ⊆ w'.past j := by
  by_cases hj : j = i
  case pos => subst hj; exact fun _ he => h.mem_past_iff.mpr (.inl he)
  case neg => exact h.past_of_ne hj ▸ List.Subset.refl _

theorem library_inv {reply : Except Library.Failure c.Reply} (h : Answers O i w (.library c) reply w') :
    ∃ m, O.times m ∧ w.library.perform m c = (reply, w'.library) := by
  cases h
  case library m hm => exact ⟨m, hm, rfl⟩
  case other ho _   => exact ho.elim

theorem now_inv {reply : Option Moment} (h : Answers O i w .now reply w') :
    ∃ m, O.times m ∧ reply = if m.inUtc.InRange then some m.inUtc else none := by
  cases h
  case now m hm   => exact ⟨m, hm, rfl⟩
  case other ho _ => exact ho.elim

theorem other_inv (h : Answers O i w r reply w') (hr : r.IsOutside) :
    O.replies r reply ∧ w'.library = w.library := by
  cases h
  case library  => exact hr.elim
  case now      => exact hr.elim
  case other ha => exact ⟨ha, rfl⟩

end Answers

section

variable {m : Moment} {replyTo : (r : Request) → r.Reply} {r : Request}

-- The reply at a time that stands still, if everyone else always says the same.
def answer (m : Moment) (replyTo : (r : Request) → r.Reply) (w : Shared ι) (i : ι) :
    (r : Request) → r.Reply × Shared ι
  | .library c =>
    let (reply, library) := w.library.perform m c
    (reply, record { w with library } i ⟨.library c, reply⟩)
  | .now =>
    let reply := if m.inUtc.InRange then some m.inUtc else none
    (reply, w.record i ⟨.now, reply⟩)
  | r => (replyTo r, w.record i ⟨r, replyTo r⟩)

theorem answers_answer :
    Answers (.still m replyTo) i w r (w.answer m replyTo i r).1 (w.answer m replyTo i r).2 := by
  cases r
  case library => exact .library rfl
  case now     => exact .now rfl
  all_goals exact .other trivial rfl

end

end Shared

-- One of the programs asks for something, and is answered.
inductive Turn (O : Outside) : (ι → Program α) → Shared ι → (ι → Program α) → Shared ι → Prop
  | intro {ts w i r next reply w'} :
    ts i = .ask r next → w.Answers O i r reply w' → Turn O ts w (Function.update ts i (next reply)) w'

-- Programs have taken turns on a shared library, in any order.
inductive Interleaves (O : Outside) (ts : ι → Program α) (w : Shared ι) : (ι → Program α) → Shared ι → Prop
  | refl : Interleaves O ts w ts w
  | turn {ts' w' ts'' w''} :
    Interleaves O ts w ts' w' → Turn O ts' w' ts'' w'' → Interleaves O ts w ts'' w''

theorem Program.wellFounded_next :
    WellFounded fun t' t : Program α => ∃ r next reply, t = .ask r next ∧ t' = next reply := by
  refine ⟨fun t => ?_⟩
  induction t
  case done          => exact ⟨_, fun _ ⟨_, _, _, he, _⟩ => by cases he⟩
  case fail          => exact ⟨_, fun _ ⟨_, _, _, he, _⟩ => by cases he⟩
  case ask r next hi => exact ⟨_, fun _ ⟨_, _, reply, he, ht⟩ => by cases he; exact ht ▸ hi reply⟩

-- Finitely many programs do not take turns for ever.
theorem wellFounded_turn [Finite ι] :
    WellFounded fun p' p : (ι → Program α) × Shared ι => Turn O p.1 p.2 p'.1 p'.2 := by
  refine Subrelation.wf ?_
    (InvImage.wf Prod.fst (Pi.Lex.wellFounded WellOrderingRel fun _ => Program.wellFounded_next))
  intro ⟨ts', w'⟩ ⟨ts, w⟩ h
  cases h
  case intro i r next reply hn _ =>
    refine ⟨i, fun j hj => Function.update_of_ne (ne_of_irrefl hj) .., r, next, reply, hn, ?_⟩
    exact Function.update_self ..

-- Programs take turns in the given order, for as long as they have not come to their ends.
def takeTurns (m : Moment) (replyTo : (r : Request) → r.Reply) :
    List ι → (ι → Program α) → Shared ι → (ι → Program α) × Shared ι
  | [], ts, w => (ts, w)
  | i :: rest, ts, w =>
    match ts i with
    | .ask r next =>
      let (reply, w) := w.answer m replyTo i r
      takeTurns m replyTo rest (Function.update ts i (next reply)) w
    | _ => takeTurns m replyTo rest ts w

theorem interleaves_takeTurns {m : Moment} {replyTo : (r : Request) → r.Reply} {order : List ι}
    {ts ts' : ι → Program α} (h : Interleaves (.still m replyTo) ts w ts' w') :
    Interleaves (.still m replyTo) ts w
      (takeTurns m replyTo order ts' w').1 (takeTurns m replyTo order ts' w').2 := by
  induction order generalizing ts' w'
  case nil => exact h
  case cons i rest hi =>
    unfold takeTurns
    split
    case h_1 hn => exact hi (h.turn ⟨hn, Shared.answers_answer⟩)
    case h_2    => exact hi h

-- Terms on which programs share a library: what holds at all times, and what each of them may count on
-- while the others have their turns.
structure Terms (ι : Type) [DecidableEq ι] (O : Outside) where
  holds     : Shared ι → Prop
  meanwhile : ι → Shared ι → Shared ι → Prop
  refl      : ∀ {i w}, meanwhile i w w
  trans     : ∀ {i w w' w''}, meanwhile i w w' → meanwhile i w' w'' → meanwhile i w w''
  others    : ∀ {i j w r reply w'}, j ≠ i → holds w → w.Answers O j r reply w' → meanwhile i w w'

namespace Terms

variable {T : Terms ι O} {P Q : α → Shared ι → Prop} {E F : Failure → Shared ι → Prop}

-- A program keeps to the terms, and it comes to an end as given as long as the others keep to them.
def Copes (T : Terms ι O) (i : ι) (t : Program α) (w : Shared ι) (P : α → Shared ι → Prop)
    (E : Failure → Shared ι → Prop) : Prop :=
  match t with
  | .done a     => ∀ w', T.meanwhile i w w' → T.holds w' → P a w'
  | .fail e     => ∀ w', T.meanwhile i w w' → T.holds w' → E e w'
  | .ask r next => ∀ w₁ reply w₂, T.meanwhile i w w₁ → T.holds w₁ → w₁.Answers O i r reply w₂ →
    T.holds w₂ ∧ T.Copes i (next reply) w₂ P E

namespace Copes

theorem meanwhile {t : Program α} (h : T.Copes i t w P E) (hm : T.meanwhile i w w') :
    T.Copes i t w' P E := by
  cases t
  case done => exact fun _ hm' hv => h _ (T.trans hm hm') hv
  case fail => exact fun _ hm' hv => h _ (T.trans hm hm') hv
  case ask  => exact fun _ _ _ hm' hv ha => h _ _ _ (T.trans hm hm') hv ha

theorem mono {t : Program α} (h : T.Copes i t w P E) (hp : ∀ {a w}, P a w → Q a w)
    (he : ∀ {e w}, E e w → F e w) : T.Copes i t w Q F := by
  induction t generalizing w
  case done          => exact fun _ hm hv => hp (h _ hm hv)
  case fail          => exact fun _ hm hv => he (h _ hm hv)
  case ask r next hi =>
    intro w₁ reply w₂ hm hv ha
    have ⟨hv, hc⟩ := h w₁ reply w₂ hm hv ha
    exact ⟨hv, hi reply hc⟩

-- It is enough to cope with what may have become of the library before the first turn.
theorem intro {t : Program α} (h : ∀ w', T.meanwhile i w w' → T.holds w' → T.Copes i t w' P E) :
    T.Copes i t w P E := by
  cases t
  case done => exact fun _ hm hv => h _ hm hv _ T.refl hv
  case fail => exact fun _ hm hv => h _ hm hv _ T.refl hv
  case ask  => exact fun _ _ _ hm hv ha => h _ hm hv _ _ _ T.refl hv ha

theorem bind {t : Program α} {f : α → Program β} {Q : β → Shared ι → Prop} (ht : T.Copes i t w P E)
    (hf : ∀ {a w}, T.holds w → P a w → T.Copes i (f a) w Q E) : T.Copes i (t >>= f) w Q E := by
  induction t generalizing w
  case done          => exact intro fun _ hm hv => hf hv (ht _ hm hv)
  case fail          => exact ht
  case ask r next hi =>
    intro w₁ reply w₂ hm hv ha
    have ⟨hv, hc⟩ := ht w₁ reply w₂ hm hv ha
    exact ⟨hv, hi reply hc⟩

-- A program whose failure is looked at later.
theorem outcome {t : Program α} {P : Except Failure α → Shared ι → Prop}
    (h : T.Copes i t w (fun a => P (.ok a)) fun e => P (.error e)) : T.Copes i t.outcome w P E := by
  induction t generalizing w
  case done          => exact h
  case fail          => exact h
  case ask r next hi =>
    intro w₁ reply w₂ hm hv ha
    have ⟨hv, hc⟩ := h w₁ reply w₂ hm hv ha
    exact ⟨hv, hi reply hc⟩

-- Programs that are run side by side cope if each of them does, and nothing that they ask for matters to
-- the other one.
theorem beside {C : Request → Prop} {t₁ : Program α} {t₂ : Program β} {t : Program (α × β)}
    {Q : β → Shared ι → Prop}
    (hc : ∀ {r reply w w'}, C r → T.holds w → w.Answers O i r reply w' → T.meanwhile i w w')
    (ht : t₁.Beside t₂ t) (h₁ : t₁.Asks C) (h₂ : t₂.Asks C) (hp : T.Copes i t₁ w P E)
    (hq : T.Copes i t₂ w Q E) : T.Copes i t w (fun a w => P a.1 w ∧ Q a.2 w) E := by
  induction ht generalizing w
  case done          => exact fun _ hm hv => ⟨hp _ hm hv, hq _ hm hv⟩
  case left _ hi     =>
    have ⟨hr, h₁⟩ := h₁.ask_inv
    intro w₁ reply w₂ hm hv ha
    have ⟨hv', hp⟩ := hp _ _ _ hm hv ha
    exact ⟨hv', hi reply (h₁ reply) h₂ hp (hq.meanwhile (T.trans hm (hc hr hv ha)))⟩
  case right _ hi    =>
    have ⟨hr, h₂⟩ := h₂.ask_inv
    intro w₁ reply w₂ hm hv ha
    have ⟨hv', hq⟩ := hq _ _ _ hm hv ha
    exact ⟨hv', hi reply h₁ (h₂ reply) (hp.meanwhile (T.trans hm (hc hr hv ha))) hq⟩

theorem done_inv {a : α} (h : T.Copes i (.done a) w P E) (hv : T.holds w) : P a w :=
  h _ T.refl hv

theorem fail_inv {e : Failure} (h : T.Copes i (.fail e) w P E) (hv : T.holds w) : E e w :=
  h _ T.refl hv

end Copes

end Terms

section

variable {T : Terms ι O} {P : ι → α → Shared ι → Prop} {E : ι → Failure → Shared ι → Prop}
variable {ts ts' : ι → Program α}

theorem Turn.copes (h : Turn O ts w ts' w') (hv : T.holds w) (hc : ∀ i, T.Copes i (ts i) w (P i) (E i)) :
    T.holds w' ∧ ∀ i, T.Copes i (ts' i) w' (P i) (E i) := by
  cases h
  case intro i r next reply hn ha =>
    have hi := hc i
    rw [hn] at hi
    have ⟨hv', hi⟩ := hi _ _ _ T.refl hv ha
    refine ⟨hv', fun j => ?_⟩
    by_cases hj : j = i
    case pos => subst hj; rw [Function.update_self]; exact hi
    case neg => rw [Function.update_of_ne hj]; exact (hc j).meanwhile (T.others (Ne.symm hj) hv ha)

-- Programs that cope on their own with what the others do all cope when they take turns.
theorem Interleaves.copes (h : Interleaves O ts w ts' w') (hv : T.holds w)
    (hc : ∀ i, T.Copes i (ts i) w (P i) (E i)) :
    T.holds w' ∧ ∀ i, T.Copes i (ts' i) w' (P i) (E i) := by
  induction h
  case refl       => exact ⟨hv, hc⟩
  case turn ht hi => exact ht.copes hi.left hi.right

end

end LabelPlaylists
