import LabelPlaylists.Log.Journal

namespace LabelPlaylists.Log

/-! ## Loggers -/

-- A logger is another one or stands below it.
def IsUnder (logger parent : String) : Prop := logger = parent ∨ ∃ rest, logger = parent ++ "." ++ rest

theorem isUnder_iff {logger parent : String} :
    IsUnder logger parent ↔ (logger = parent || (parent ++ ".").toList.isPrefixOf logger.toList) = true := by
  rw [Bool.or_eq_true, decide_eq_true_iff, List.isPrefixOf_iff_prefix]
  refine or_congr_right ⟨fun ⟨rest, h⟩ => ?_, fun ⟨rest, h⟩ => ?_⟩
  · exact ⟨rest.toList, by rw [h, String.toList_append (s := parent ++ ".")]⟩
  · exact ⟨String.ofList rest, String.toList_inj.mp (by rw [String.toList_append, String.toList_ofList, h])⟩

instance (logger parent : String) : Decidable (IsUnder logger parent) := decidable_of_iff' _ isUnder_iff

theorem threshold_eq (logger : String) :
    threshold logger = if IsUnder logger "urllib3" ∨ IsUnder logger "spotipy" then .warning else .debug := by
  have hc : (chattyLoggers.any fun c => logger = c || (c ++ ".").toList.isPrefixOf logger.toList) = true ↔
      IsUnder logger "urllib3" ∨ IsUnder logger "spotipy" := by
    simp only [chattyLoggers, List.any_eq_true, List.mem_cons, List.not_mem_nil, or_false, exists_eq_or_imp,
      exists_eq_left, isUnder_iff]
  unfold threshold
  split <;> rename_i h
  case isTrue  => exact (if_pos (hc.mp h)).symm
  case isFalse => exact (if_neg (mt hc.mpr h)).symm

namespace Record

-- The logger of a record lets it through.
def IsLetThrough (r : Record) : Prop :=
  Level.debug ≤ r.level ∧ (IsUnder r.logger "urllib3" ∨ IsUnder r.logger "spotipy" → Level.warning ≤ r.level)

instance (r : Record) : Decidable r.IsLetThrough := by unfold IsLetThrough; infer_instance

theorem isHeard_iff {r : Record} : r.isHeard ↔ r.IsLetThrough := by
  have hl : Level.debug ≤ Level.warning := by decide
  unfold isHeard IsLetThrough
  rw [decide_eq_true_iff, threshold_eq]
  split
  case isTrue h  => exact ⟨fun hw => ⟨Int.le_trans hl hw, fun _ => hw⟩, fun hw => hw.right h⟩
  case isFalse h => exact ⟨fun hd => ⟨hd, fun hu => absurd hu h⟩, And.left⟩

-- No logger holds back a failure.
theorem isLetThrough_ofFailure (logger : String) (f : CriteriaFailure) : (ofFailure logger f).IsLetThrough :=
  ⟨show Level.debug ≤ Level.error by decide, fun _ => show Level.warning ≤ Level.error by decide⟩

end Record

/-! ## Events -/

-- What happens to the log of a program.
inductive Event where
  | call (level : Level) (logger message : String)
  | failure (logger : String) (f : CriteriaFailure)
  | shutdown
deriving DecidableEq

namespace Event

-- The record that a call makes.
def record? : Event → Option Record
  | call level logger message => some { level, logger, message }
  | failure logger f          => some (.ofFailure logger f)
  | shutdown                  => none

def failure? : Event → Option CriteriaFailure
  | failure _ f => some f
  | _           => none

end Event

-- What happens before the first shutdown.
def early (events : List Event) : List Event := events.takeWhile (· ≠ .shutdown)

-- The records of the calls before the first shutdown that their loggers let through.
def heard (events : List Event) : List Record := ((early events).filterMap Event.record?).filter (·.IsLetThrough)

-- The failures before the first shutdown.
def failures (events : List Event) : List CriteriaFailure := (early events).filterMap Event.failure?

-- The block of a failure in the report.
def CriteriaFailure.block (f : CriteriaFailure) : String :=
  "Label: " ++ f.label ++ "\nCriteria: " ++ f.criteria ++ "\nReason: " ++ f.reason ++ "\n\n"

section

variable {e : Event} {events : List Event}

theorem early_cons (h : e ≠ .shutdown) : early (e :: events) = e :: early events :=
  List.takeWhile_cons_of_pos (decide_eq_true h)

theorem heard_cons (h : e ≠ .shutdown) (events : List Event) : heard (e :: events) = heard [e] ++ heard events := by
  unfold heard
  rw [early_cons h, early_cons h, ← List.singleton_append, List.filterMap_append, List.filter_append]
  rfl

-- Of what is heard the failures are what carries one.
theorem filter_heard_failure (events : List Event) :
    ((heard events).filter (·.failure.isSome)).map Record.reportBlock
      = (failures events).map CriteriaFailure.block := by
  unfold heard failures
  induction early events
  case nil => rfl
  case cons e rest hi =>
    rw [List.filter_filter] at hi ⊢
    cases e
    case call level logger message =>
      show (List.filter _ (Record.mk level logger message none :: rest.filterMap _)).map _ = _
      rw [List.filter_cons_of_neg Bool.false_ne_true]
      exact hi
    case failure logger f =>
      show (List.filter _ (Record.ofFailure logger f :: rest.filterMap _)).map _ = _
      have hl := Record.isLetThrough_ofFailure logger f
      rw [List.filter_cons_of_pos (by exact decide_eq_true hl), List.map_cons, hi]
      rfl
    case shutdown => exact hi

end

/-! ## Journals -/

namespace Journal

variable {j : Journal} {e : Event} {events : List Event} {verbose : Bool}

def follow (j : Journal) (e : Event) : Journal :=
  match e with
  | .call level logger message => j.write { level, logger, message }
  | .failure logger f          => j.write (.ofFailure logger f)
  | .shutdown                  => j.close

def after (j : Journal) (events : List Event) : Journal := events.foldl follow j

-- What goes to an output.
def taken (verbose : Bool) (s : Sink) (events : List Event) : List Record :=
  (heard events).filter (s.takes verbose)

theorem write_closed (h : j.isOpen = false) (r : Record) : j.write r = j := by
  unfold write
  rw [h]
  rfl

theorem write_open (h : j.isOpen) (r : Record) :
    (j.write r).isOpen ∧ (j.write r).verbose = j.verbose ∧
      ∀ s, (j.write r).records s = j.records s ++ ([r].filter (·.IsLetThrough)).filter (s.takes j.verbose) := by
  unfold write
  split <;> rename_i hr <;> refine ⟨h, rfl, fun s => ?_⟩ <;> rw [h, Bool.true_and, Record.isHeard_iff] at hr
  case isTrue  =>
    show (if _ then _ else _) = _
    rw [List.filter_cons_of_pos (by simpa using hr), List.filter_nil, List.filter_cons, List.filter_nil]
    split
    case isTrue  => rfl
    case isFalse => exact (List.append_nil _).symm
  case isFalse =>
    rw [List.filter_cons_of_neg (by simpa using hr)]
    exact (List.append_nil _).symm

-- A closed journal stays as it is.
theorem follow_closed (h : j.isOpen = false) (e : Event) : j.follow e = j := by
  cases e
  case call     => exact write_closed h _
  case failure  => exact write_closed h _
  case shutdown =>
    cases j
    cases h
    rfl

theorem after_closed (h : j.isOpen = false) (events : List Event) : j.after events = j := by
  induction events
  case nil           => rfl
  case cons e _ hi   => exact (congrArg (after · _) (follow_closed h e)).trans hi

-- An open journal stays open until it is shut down, and puts a call where it belongs.
theorem follow_open (h : j.isOpen) (he : e ≠ .shutdown) :
    (j.follow e).isOpen ∧ (j.follow e).verbose = j.verbose ∧
      ∀ s, (j.follow e).records s = j.records s ++ taken j.verbose s [e] := by
  cases e
  case call     => exact write_open h _
  case failure  => exact write_open h _
  case shutdown => cases he rfl

theorem after_open (h : j.isOpen) (events : List Event) :
    ((j.after events).isOpen ↔ .shutdown ∉ events) ∧
      ∀ s, (j.after events).records s = j.records s ++ taken j.verbose s events := by
  induction events generalizing j
  case nil => exact ⟨iff_of_true h List.not_mem_nil, fun _ => (List.append_nil _).symm⟩
  case cons e rest hi =>
    by_cases he : e = .shutdown
    case pos =>
      subst he
      have hc : j.after (.shutdown :: rest) = j.close := after_closed rfl rest
      rw [hc]
      exact ⟨iff_of_false Bool.false_ne_true (not_not_intro List.mem_cons_self), fun _ => (List.append_nil _).symm⟩
    case neg =>
      have ⟨ho, hv, hr⟩ := follow_open h he
      have ⟨hi, hs⟩ := hi ho
      refine ⟨hi.trans (not_congr (by simp [Ne.symm he])), fun s => ?_⟩
      refine (hs s).trans ?_
      rw [hr, hv, List.append_assoc]
      unfold taken
      rw [heard_cons he rest, List.filter_append]

-- Where the calls of a program go.
-- 1. The full log has what is heard before the first shutdown,
-- 2. the log of errors what of it is an error or worse,
-- 3. and the console what of it is an information or worse, or all of it if it is verbose.
-- 4. The report has the blocks of the failures before the first shutdown and nothing else.
-- 5. No output is left once there has been a shutdown,
-- 6. and nothing that happens later makes a difference.
structure Routes (j : Journal) (verbose : Bool) (events : List Event) : Prop where
  full    : j.records .full = heard events
  errors  : j.records .errors = (heard events).filter (Level.error ≤ ·.level)
  console : j.records .console = (heard events).filter ((if verbose then Level.debug else Level.info) ≤ ·.level)
  report  : ∀ time, j.text time .report = String.join ((failures events).map CriteriaFailure.block)
  sinks   : j.sinks = if .shutdown ∈ events then [] else [.console, .full, .errors, .report]
  silent  : .shutdown ∈ events → ∀ later, j.after later = j

-- All outputs agree on what has been heard.
theorem routes (verbose : Bool) (events : List Event) :
    (after { verbose } events).Routes verbose events := by
  have ⟨ho, hr⟩ := after_open (j := { verbose }) rfl events
  constructor
  case full =>
    refine (hr .full).trans (List.filter_eq_self.mpr fun r hm => ?_)
    exact decide_eq_true (of_decide_eq_true (List.mem_filter.mp hm).right).left
  case errors =>
    refine (hr .errors).trans (List.filter_congr fun r _ => ?_)
    have hl : Level.debug ≤ Level.error := by decide
    exact Bool.and_eq_right_iff_imp.mpr fun he => decide_eq_true (Int.le_trans hl (of_decide_eq_true he))
  case console => exact hr .console
  case report =>
    intro time
    show String.join (((after { verbose } events).records .report).map Record.reportBlock) = _
    rw [← filter_heard_failure, hr .report]
    rfl
  case sinks =>
    unfold sinks
    by_cases hs : .shutdown ∈ events
    case pos => rw [if_pos hs, if_neg (mt ho.mp (not_not_intro hs))]
    case neg => rw [if_neg hs, if_pos (ho.mpr hs)]
  case silent => exact fun hs => after_closed (by simpa using mt ho.mp (not_not_intro hs))

end Journal

end LabelPlaylists.Log
