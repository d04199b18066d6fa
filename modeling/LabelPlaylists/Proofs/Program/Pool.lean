import LabelPlaylists.Proofs.Program.Interleaved
import LabelPlaylists.Proofs.Program.Played
import Mathlib.Logic.Hydra

namespace LabelPlaylists

namespace Program

-- What a program has come to, if it has come to its end.
def result? : Program α → Option (Except Failure α)
  | .done a => some (.ok a)
  | .fail e => some (.error e)
  | .ask .. => none

theorem plays_of_result? {t : Program α} {o : Except Failure α} (h : t.result? = some o) : t.Plays [] o := by
  cases t <;> cases h
  case done => exact .done
  case fail => exact .fail

theorem split_append (found more : List (α × Except Failure β)) :
    split (found ++ more) = ((split found).1 ++ (split more).1, (split found).2 ++ (split more).2) := by
  fun_induction split found
  case case1         => rfl
  case case2 b _ hr  => rw [List.cons_append, split, hr]; rfl
  case case3 e _ hr  => rw [List.cons_append, split, hr]; rfl

end Program

theorem Request.nonempty_reply (r : Request) : Nonempty r.Reply := by
  cases r
  case library        => exact ⟨.error .timeOutOfRange⟩
  case call           => exact ⟨.ok .null⟩
  case grant          => exact ⟨.error ""⟩
  case now            => exact ⟨none⟩
  case session        => exact ⟨none⟩
  case prompt         => exact ⟨none⟩
  case secret         => exact ⟨""⟩
  case source         => exact ⟨.nothing⟩
  case settings       => exact ⟨.error .notText⟩
  case openLog        => exact ⟨.ok ()⟩
  case openLibrary    => exact ⟨.ok ()⟩
  all_goals exact ⟨()⟩

open Program (Work)

-- A call that is not over: what has been exchanged in its course, and what is left to do.
structure Begun (α β : Type) where
  item      : α
  exchanges : List Exchange
  rest      : Program β

-- The call has come to its end.
def Begun.ended (c : Begun α β) (o : Except Failure β) : Work α β := ⟨c.item, c.exchanges, o⟩

-- Workers that call a function with items, and someone who waits for what the calls come to.
structure Pool (α β : Type) where
  -- The items that no worker has taken yet.
  waiting  : List α
  -- The items that the function has been called with.
  called   : List α := []
  underway : List (Begun α β) := []
  -- The calls that are over, as they have come to their ends.
  ended    : List (Work α β) := []
  -- The calls that were over when the waiting began, if it has begun.
  early    : Option (List (Work α β)) := none
  -- The calls that are over and yet to be told of.
  untold   : List (Work α β) := []
  told     : List (Work α β) := []
  past     : List Exchange := []

namespace Pool

variable {items : List α} {workers : Int} {description : String} {shown : α → String} {f : α → Program β}
variable {p p' : Pool α β} {o : Except Failure (List (α × β))}

-- The line that telling of a call leaves in the log: a failure is logged, unless it is the first.
def line (description : String) (shown : α → String) (p : Pool α β) (w : Work α β) : List Exchange :=
  match w.result with
  | .ok _    => []
  | .error e =>
    if (Program.split (p.told.map Work.found)).2.isEmpty then []
    else [Program.failureLine description shown (w.item, e)]

inductive Step (workers : Int) (description : String) (shown : α → String) (f : α → Program β) :
    Pool α β → Pool α β → Prop
  -- A worker who has nothing to do takes the next item.
  | take {p a waiting} :
    p.waiting = a :: waiting → (p.underway.length : Int) < workers →
    Step workers description shown f p
      { p with waiting, called := p.called ++ [a], underway := p.underway ++ [⟨a, [], f a⟩] }
  -- A call asks for something, and is answered.
  | ask {p before a es r next after} (reply : r.Reply) :
    p.underway = before ++ ⟨a, es, .ask r next⟩ :: after →
    Step workers description shown f p
      { p with
        underway := before ++ ⟨a, es ++ [⟨r, reply⟩], next reply⟩ :: after
        past     := p.past ++ [⟨r, reply⟩] }
  -- A call comes to its end.
  | finish {p before c after o} :
    p.underway = before ++ c :: after → c.rest.result? = some o →
    Step workers description shown f p
      { p with
        underway := before ++ after
        ended    := p.ended ++ [c.ended o]
        untold   := p.untold ++ [c.ended o] }
  -- The waiting begins. There is no order among the calls that are over already.
  | wait {p untold} :
    p.early = none → untold.Perm p.untold →
    Step workers description shown f p { p with early := some p.ended, untold }
  -- The one who waits is told of a call.
  | tell {p w untold} :
    p.early.isSome → p.untold = w :: untold →
    Step workers description shown f p
      { p with untold, told := p.told ++ [w], past := p.past ++ p.line description shown w }

-- The waiting ends when all calls have been told of.
def Returns (items : List α) (p : Pool α β) (o : Except Failure (List (α × β))) : Prop :=
  p.early.isSome ∧ p.told.length = items.length ∧ o = Program.reported (p.told.map Work.found)

-- Before the waiting begins nobody is told of anything. Calls that come to their ends later are told of in
-- that order, behind those that are over by then.
inductive Ordered : Option (List (Work α β)) → List (Work α β) → List (Work α β) → List (Work α β) → Prop
  | busy {ended} : Ordered none ended [] ended
  | waiting {early seen late told untold} :
    seen.Perm early → told ++ untold = seen ++ late → Ordered (some early) (early ++ late) told untold

-- What holds of a pool at all times.
structure Sound (description : String) (shown : α → String) (f : α → Program β) (items : List α) (p : Pool α β) :
    Prop where
  called    : p.called ++ p.waiting = items
  items     : p.called.Perm (p.underway.map (·.item) ++ p.ended.map (·.item))
  underway  : ∀ c ∈ p.underway, ∀ es o, c.rest.Plays es o → (f c.item).Plays (c.exchanges ++ es) o
  ended     : ∀ w ∈ p.ended, (f w.item).Plays w.exchanges w.result
  order     : Ordered p.early p.ended p.told p.untold
  past      : p.past.Perm (p.underway.flatMap (·.exchanges) ++ p.ended.flatMap (·.exchanges) ++
    Program.failureLines description shown (p.told.map Work.found))

theorem failureLines_told (p : Pool α β) (w : Work α β) :
    Program.failureLines description shown ((p.told ++ [w]).map Work.found)
      = Program.failureLines description shown (p.told.map Work.found) ++ p.line description shown w := by
  unfold Program.failureLines line
  rw [List.map_append, Program.split_append]
  cases w
  case mk a es o =>
    cases o
    case ok    => simp [Work.found, Program.split]
    case error e =>
      cases hf : (Program.split (p.told.map Work.found)).2 <;> simp [Work.found, Program.split]

namespace Ordered

variable {early : Option (List (Work α β))} {ended told untold first : List (Work α β)} {w : Work α β}

theorem perm (h : Ordered early ended told untold) : (told ++ untold).Perm ended := by
  cases h
  case busy          => exact .refl _
  case waiting hp he => exact he ▸ hp.append_right _

theorem finish (h : Ordered early ended told untold) : Ordered early (ended ++ [w]) told (untold ++ [w]) := by
  cases h
  case busy          => exact .busy
  case waiting hp he =>
    rw [List.append_assoc]
    exact .waiting hp (by rw [← List.append_assoc, he, List.append_assoc])

theorem wait (h : Ordered none ended told untold) (hp : first.Perm untold) : Ordered (some ended) ended told first := by
  cases h
  have hw : Ordered (some ended) (ended ++ []) [] first := .waiting hp (List.append_nil first).symm
  rwa [List.append_nil] at hw

theorem tell (h : Ordered early ended told (w :: untold)) (he : early.isSome) :
    Ordered early ended (told ++ [w]) untold := by
  cases h
  case busy          => cases he
  case waiting hp he => exact .waiting hp (by rw [← he, List.append_assoc]; rfl)

theorem exists_late (h : Ordered (some first) ended told untold) :
    ∃ seen late, seen.Perm first ∧ ended = first ++ late ∧ told ++ untold = seen ++ late := by
  cases h
  case waiting hp he => exact ⟨_, _, hp, rfl, he⟩

end Ordered

namespace Sound

variable (h : p.Sound description shown f items)

include h

-- Every item is waiting, or its call is underway or over.
theorem length_items : p.waiting.length + p.underway.length + p.untold.length + p.told.length = items.length := by
  have hc := congrArg List.length h.called
  have hi := h.items.length_eq
  have ht := h.order.perm.length_eq
  simp only [List.length_append, List.length_map] at hc hi ht
  omega

end Sound

theorem sound_start : Sound description shown f items { waiting := items } where
  called    := rfl
  items     := .refl _
  underway  := List.forall_mem_nil _
  ended     := List.forall_mem_nil _
  order     := .busy
  past      := .refl _

-- Something new at the end may as well stand anywhere else.
theorem perm_insert {γ : Type} {l front back : List γ} (h : l.Perm (front ++ back)) (more : List γ) :
    (l ++ more).Perm (front ++ (more ++ back)) := by
  refine (h.append_right more).trans ?_
  rw [List.append_assoc]
  exact List.perm_append_comm.append_left front

theorem Step.sound (e : Step workers description shown f p p') (h : p.Sound description shown f items) :
    p'.Sound description shown f items := by
  have hc := h.underway
  have hi := h.items
  have hp := h.past
  cases e
  case take a waiting hw _ =>
    refine { h with called := ?called, items := ?items, underway := ?underway, past := ?past }
    case called =>
      rw [List.append_assoc, List.singleton_append, ← hw]
      exact h.called
    case items =>
      rw [List.map_append, List.append_assoc]
      exact perm_insert hi [a]
    case underway => exact List.forall_mem_append.mpr ⟨hc, List.forall_mem_singleton.mpr fun _ _ hp => hp⟩
    case past     => simpa using hp
  case ask before a es r next after reply hu =>
    rw [hu] at hc hi hp
    rw [List.forall_mem_append, List.forall_mem_cons] at hc
    refine { h with items := ?items, underway := ?underway, past := ?past }
    case items => simpa using hi
    case underway =>
      refine List.forall_mem_append.mpr ⟨hc.left, List.forall_mem_cons.mpr ⟨fun es' o hp => ?_, hc.right.right⟩⟩
      rw [List.append_assoc]
      exact hc.right.left _ _ (.ask hp)
    case past =>
      simp only [List.flatMap_append, List.flatMap_cons, List.append_assoc] at hp ⊢
      rw [← List.append_assoc] at hp ⊢
      exact perm_insert hp [⟨r, reply⟩]
  case finish before c after o hu ho =>
    rw [hu] at hc hi hp
    rw [List.forall_mem_append, List.forall_mem_cons] at hc
    refine { h with items := ?items, underway := ?underway, ended := ?ended, order := h.order.finish, past := ?past }
    case items =>
      simp only [List.map_append, List.map_cons, List.append_assoc] at hi ⊢
      refine hi.trans (List.Perm.append_left _ ?_)
      rw [← List.append_assoc]
      exact (List.perm_append_singleton ..).symm
    case underway => exact List.forall_mem_append.mpr ⟨hc.left, hc.right.right⟩
    case ended =>
      have hw := hc.right.left [] o (Program.plays_of_result? ho)
      rw [List.append_nil] at hw
      exact List.forall_mem_append.mpr ⟨h.ended, List.forall_mem_singleton.mpr hw⟩
    case past =>
      simp only [List.flatMap_append, List.flatMap_cons, List.append_assoc] at hp ⊢
      refine hp.trans (List.Perm.append_left _ ?_)
      exact (List.perm_append_comm_assoc ..).trans ((List.perm_append_comm_assoc ..).append_left _)
  case wait untold hn hu => exact { h with order := Ordered.wait (hn ▸ h.order) hu }
  case tell w untold he hu =>
    refine { h with order := Ordered.tell (hu ▸ h.order) he, past := ?past }
    rw [failureLines_told, ← List.append_assoc]
    exact hp.append_right _

-- What a pool comes to by any number of steps.
abbrev Steps (workers : Int) (description : String) (shown : α → String) (f : α → Program β) :
    Pool α β → Pool α β → Prop :=
  Relation.ReflTransGen (Step workers description shown f)

theorem Steps.sound (e : Steps workers description shown f p p') (h : p.Sound description shown f items) :
    p'.Sound description shown f items := by
  induction e
  case refl         => exact h
  case tail _ e hi  => exact e.sound hi

-- As long as the waiting is not over, there is something to do.
theorem Sound.progress (h : p.Sound description shown f items) (hw : 1 ≤ workers) :
    (∃ o, p.Returns items o) ∨ ∃ p', Step workers description shown f p p' := by
  cases hu : p.underway
  case cons c after =>
    obtain ⟨a, es, t⟩ := c
    cases t
    case done b      => exact .inr ⟨_, .finish (show _ = [] ++ _ :: after from hu) rfl⟩
    case fail e      => exact .inr ⟨_, .finish (show _ = [] ++ _ :: after from hu) rfl⟩
    case ask r next  =>
      have ⟨reply⟩ := r.nonempty_reply
      exact .inr ⟨_, .ask reply (show _ = [] ++ _ :: after from hu)⟩
  case nil =>
    cases hq : p.waiting
    case cons a waiting => exact .inr ⟨_, .take hq (by rw [hu]; exact hw)⟩
    case nil =>
      cases he : p.early
      case none => exact .inr ⟨_, .wait he (.refl _)⟩
      case some early =>
        cases ht : p.untold
        case cons w untold => exact .inr ⟨_, .tell (he ▸ rfl) ht⟩
        case nil =>
          have hl := h.length_items
          rw [hq, hu, ht] at hl
          exact .inl ⟨_, he ▸ rfl, by simpa using hl, rfl⟩

/-! ## Ends -/

-- What there is left to do.
def left (p : Pool α β) : Nat × Multiset (Program β) × Nat :=
  (p.waiting.length, (p.underway.map (·.rest) : List (Program β)), p.untold.length + if p.early.isSome then 0 else 1)

theorem rest_middle (before after : List (Begun α β)) (c : Begun α β) :
    ((before ++ c :: after).map (·.rest) : Multiset (Program β))
      = ((before ++ after).map (·.rest) : List (Program β)) + {c.rest} := by
  rw [← Multiset.coe_singleton, Multiset.coe_add, Multiset.coe_eq_coe]
  simp only [List.map_append, List.map_cons, List.append_assoc]
  exact (List.perm_append_singleton ..).symm.append_left _

-- An item less is waiting, or one of the calls has gone on or come to its end, or there is less to wait for.
def LeftLess (l' l : Nat × Multiset (Program β) × Nat) : Prop :=
  Prod.Lex (· < ·)
    (Prod.Lex (Relation.CutExpand fun t' t => ∃ r next reply, t = .ask r next ∧ t' = next reply) (· < ·)) l' l

theorem Step.left_less (e : Step workers description shown f p p') : LeftLess p'.left p.left := by
  unfold left
  cases e
  case take hq _ => exact .left _ _ (by simp [hq])
  case ask before a es r next after reply hu =>
    refine .right _ (.left _ _ ?_)
    rw [hu, rest_middle, rest_middle, Relation.cutExpand_add_left]
    exact Relation.cutExpand_singleton_singleton ⟨r, next, reply, rfl, rfl⟩
  case finish before c after o hu _ =>
    refine .right _ (.left _ _ ?_)
    rw [hu, rest_middle]
    exact ⟨0, c.rest, nofun, (Multiset.add_zero _).symm⟩
  case wait hn hp => exact .right _ (.right _ (by simp [hn, hp.length_eq]))
  case tell hu    => exact .right _ (.right _ (by simp [hu]))

theorem wellFounded_step : WellFounded fun p' p : Pool α β => Step workers description shown f p p' :=
  Subrelation.wf Step.left_less
    (InvImage.wf left (wellFounded_lt.prod_lex (Program.wellFounded_next.cutExpand.prod_lex wellFounded_lt)))

/-! ## Item by item -/

variable {before after : List (Begun α β)} {a : α} {es more : List Exchange} {t : Program β}

-- A call may be brought to its end without regard to the others.
theorem steps_call {result : Except Failure β} (hu : p.underway = before ++ ⟨a, es, t⟩ :: after)
    (h : t.Plays more result) :
    Steps workers description shown f p
      { p with
        underway := before ++ after
        ended    := p.ended ++ [⟨a, es ++ more, result⟩]
        untold   := p.untold ++ [⟨a, es ++ more, result⟩]
        past     := p.past ++ more } := by
  induction h generalizing p es
  case done =>
    rw [List.append_nil, List.append_nil]
    exact .single (.finish hu rfl)
  case fail =>
    rw [List.append_nil, List.append_nil]
    exact .single (.finish hu rfl)
  case ask r next reply more result _ hi =>
    rw [List.append_cons es, List.append_cons p.past]
    exact .head (.ask reply hu) (hi rfl)

-- One call after the other.
theorem steps_calls {works : List (Work α β)} (hw : 1 ≤ workers) (hq : p.waiting = works.map (·.item))
    (hu : p.underway = []) (h : ∀ w ∈ works, (f w.item).Plays w.exchanges w.result) :
    Steps workers description shown f p
      { p with
        waiting := []
        called  := p.called ++ works.map (·.item)
        ended   := p.ended ++ works
        untold  := p.untold ++ works
        past    := p.past ++ works.flatMap (·.exchanges) } := by
  induction works generalizing p
  case nil =>
    simp only [List.map_nil, List.flatMap_nil, List.append_nil] at hq ⊢
    rw [← hq]
  case cons w rest hi =>
    obtain ⟨a, es, result⟩ := w
    have ⟨hp, h⟩ := List.forall_mem_cons.mp h
    rw [List.map_cons, List.append_cons p.called, List.append_cons p.ended, List.append_cons p.untold,
      List.flatMap_cons, ← List.append_assoc p.past]
    refine .head (.take hq (by rw [hu]; exact hw)) ?_
    rw [hu]
    exact (steps_call (show _ = [] ++ _ :: [] from rfl) hp).trans (hi rfl rfl h)

-- Someone who waits may be told of everything that is over.
theorem steps_tell {works : List (Work α β)} (hn : p.early.isSome) (hu : p.untold = works)
    (hp : p.past = es ++ Program.failureLines description shown (p.told.map Work.found)) :
    Steps workers description shown f p
      { p with
        untold := []
        told   := p.told ++ works
        past   := es ++ Program.failureLines description shown ((p.told ++ works).map Work.found) } := by
  induction works generalizing p
  case nil =>
    rw [List.append_nil, ← hp, ← hu]
  case cons w rest hi =>
    rw [List.append_cons p.told]
    exact .head (.tell hn hu) (hi hn rfl (by rw [hp, failureLines_told, List.append_assoc]))

-- Working through the items in turn is one way to do with workers.
theorem steps_inParallel (hw : 1 ≤ workers) (h : (Program.inParallel workers description shown f items).Plays es o) :
    ∃ p, Steps workers description shown f { waiting := items } p ∧ p.past = es ∧ p.Returns items o := by
  rcases h.inParallel_course with ⟨hn, _⟩ | ⟨works, hi, hplays, ho, he⟩
  case inl => omega
  case inr =>
    subst hi
    have hs : Steps workers description shown f { waiting := works.map (·.item) } _ :=
      (steps_calls hw rfl rfl hplays).tail (.wait rfl (.refl _))
    have hs := hs.trans (steps_tell rfl rfl (List.append_nil _).symm)
    exact ⟨_, hs, he.symm, rfl, by simp, ho⟩

/-! ## What comes of the items -/

-- What a pool has come to when the waiting is over.
-- 1. The function has been called with each item, and none of the calls is left.
-- 2. For every item one call has been told of.
-- 3. Each call has taken its course to the end, whatever has become of the others,
-- 4. and nothing else has been asked for but to log the failures after the first.
-- 5. Calls have been told of as they have come to their ends. Of those that were over before, the order is open.
-- 6. There is a result for every item, each with its item, or what there is is the failure told of first.
structure Complete (description : String) (shown : α → String) (f : α → Program β) (items : List α) (p : Pool α β)
    (o : Except Failure (List (α × β))) : Prop where
  called    : p.called = items ∧ p.waiting = [] ∧ p.underway = []
  told      : (p.told.map (·.item)).Perm items
  courses   : ∀ w ∈ p.told, (f w.item).Plays w.exchanges w.result
  exchanges : p.past.Perm (p.told.flatMap (·.exchanges) ++
    Program.failureLines description shown (p.told.map Work.found))
  order     : ∃ early seen late, p.early = some early ∧ seen.Perm early ∧ p.ended = early ++ late ∧
    p.told = seen ++ late
  outcome   :
    (∃ results, o = .ok results ∧ (results.map Prod.fst).Perm items ∧
      p.told.map Work.found = results.map fun r => (r.1, .ok r.2)) ∨
    ∃ before w after e, o = .error e ∧ p.told = before ++ w :: after ∧ w.result = .error e ∧
      ∀ v ∈ before, ∃ b, v.result = .ok b

-- When all calls have been told of, none is left.
theorem Sound.complete (h : p.Sound description shown f items) (hr : p.Returns items o) :
    p.Complete description shown f items o := by
  obtain ⟨he, hl, ho⟩ := hr
  have hs := h.length_items
  obtain ⟨hq, hu, ht⟩ : p.waiting = [] ∧ p.underway = [] ∧ p.untold = [] := by
    simp only [← List.length_eq_zero_iff]
    omega
  have hp := h.order.perm
  rw [ht, List.append_nil] at hp
  have hitems : (p.told.map (·.item)).Perm items := by
    have hi := h.items
    have hc := h.called
    rw [hu] at hi
    rw [hq, List.append_nil] at hc
    exact hc ▸ (hp.map _).trans hi.symm
  constructor
  case called  => exact ⟨by simpa [hq] using h.called, hq, hu⟩
  case told    => exact hitems
  case courses => exact fun w hw => h.ended w (hp.mem_iff.mp hw)
  case exchanges =>
    have hpast := h.past
    rw [hu] at hpast
    exact hpast.trans ((hp.symm.flatMap_right _).append_right _)
  case order =>
    have ⟨early, he⟩ := Option.isSome_iff_exists.mp he
    have ⟨seen, late, hs, hended, htold⟩ := Ordered.exists_late (he ▸ h.order)
    rw [ht, List.append_nil] at htold
    exact ⟨early, seen, late, he, hs, hended, htold⟩
  case outcome =>
    rcases Program.reported_inv p.told with ⟨results, hr, _, hmap⟩ | ⟨before, w, after, e, hr, hw⟩
    case inl =>
      have hm := congrArg (List.map Prod.fst) hmap
      rw [List.map_map, List.map_map] at hm
      exact .inl ⟨results, ho.trans hr, hm ▸ hitems, hmap⟩
    case inr => exact .inr ⟨before, w, after, e, ho.trans hr, hw⟩

-- What becomes of items that workers share.
-- 1. At any time the function has been called with the first of the items, once with each.
-- 2. As long as the waiting is not over, there is something to do,
-- 3. but not for ever.
-- 4. When the waiting is over, all is complete.
-- 5. To work through the items in turn, as a program does, is one way to do it.
-- 6. If there are no items, nothing is done.
structure CallsOnce (workers : Int) (description : String) (shown : α → String) (f : α → Program β)
    (items : List α) : Prop where
  inOrder  : ∀ p, Steps workers description shown f { waiting := items } p → p.called <+: items
  progress : ∀ p, Steps workers description shown f { waiting := items } p →
    (∃ o, p.Returns items o) ∨ ∃ p', Step workers description shown f p p'
  ends     : WellFounded fun p' p => Step workers description shown f p p'
  complete : ∀ p o, Steps workers description shown f { waiting := items } p → p.Returns items o →
    p.Complete description shown f items o
  inTurn   : ∀ es o, (Program.inParallel workers description shown f items).Plays es o →
    ∃ p, Steps workers description shown f { waiting := items } p ∧ p.past = es ∧ p.Returns items o
  nothing  : items = [] → Program.inParallel workers description shown f items = .done []

namespace Sample

-- A function that fails for zero.
def flaky : Nat → Program Nat
  | 0     => .fail .noSession
  | n + 1 => .ask .now fun _ => .done n

theorem plays_flaky : (flaky 1).Plays [⟨.now, none⟩] (.ok 0) := .ask .done

end Sample

end Pool

end LabelPlaylists
