import LabelPlaylists.Proofs.Playlist.Attempted
import LabelPlaylists.Proofs.Playlist.Orphans
import LabelPlaylists.Proofs.Program.Played

namespace LabelPlaylists

open Library (Label PlaylistView)
open Program (Asks Work)

-- Requests that neither look for the tracks of a label nor report failed criteria.
def Request.IsApart : Request → Prop
  | .log r => r.failure = none
  | .library (.labelTracks _) | .library (.find ..) => False
  | _ => True

-- A search for tracks has failed.
def Exchange.isRefused : Exchange → Bool
  | ⟨.library (.find ..), .error _⟩ => true
  | _                               => false

def Exchange.report? : Exchange → Option Log.CriteriaFailure
  | ⟨.log r, _⟩ => r.failure
  | _           => none

-- The failed criteria that have been reported in the course of a program.
def reports (es : List Exchange) : List Log.CriteriaFailure := es.filterMap Exchange.report?

instance : DecidablePred Spotify.Call.IsCreation
  | .createPlaylist .. => isTrue trivial
  | .profile | .savedTracks .. | .artists _ | .replaceItems .. | .addItems .. | .removeItems .. => isFalse id

section

variable {es rest : List Exchange} {e : Exchange}

@[simp]
theorem reports_append : reports (es ++ rest) = reports es ++ reports rest := List.filterMap_append

theorem Request.IsApart.report?_eq_none (h : e.request.IsApart) : e.report? = none := by
  obtain ⟨r, reply⟩ := e
  cases r <;> first | exact h | rfl

theorem Request.IsApart.not_isRefused (h : e.request.IsApart) : e.isRefused = false := by
  obtain ⟨r, reply⟩ := e
  cases r <;> try rfl
  case library c => cases c <;> first | exact h.elim | rfl

theorem reports_eq_nil (h : ∀ e ∈ es, e.request.IsApart) : reports es = [] :=
  List.filterMap_eq_nil_iff.mpr fun e he => (h e he).report?_eq_none

theorem any_isRefused_eq_false (h : ∀ e ∈ es, e.request.IsApart) : es.any Exchange.isRefused = false :=
  List.any_eq_false.mpr fun e he => by simp [(h e he).not_isRefused]

end

theorem Request.covers_apart : Covers IsApart := by
  constructor <;> intros <;> trivial

namespace Playlist

open Account (asks_call asks_log asks_session)
open Criteria (compile)
open Request (covers_apart)

theorem asks_apartFill {playlist : String} {tracks : List String} :
    (fill playlist tracks).Asks Request.IsApart :=
  asks_fill_of fun _ _ _ => (asks_log (covers_apart.log ..)).bind fun _ => asks_call (fun _ => trivial) covers_apart

theorem asks_apartProvideIn {first : List Label → List Label} {workers : Int} :
    (provideIn first workers).Asks Request.IsApart :=
  asks_provideIn_of covers_apart (fun _ _ _ _ _ => trivial) (fun _ _ _ => trivial) fun _ => trivial

-- The criteria of a label do not compile, or a search by them has failed in the course of a program.
def unmet (criteria : Option String) (es : List Exchange) : Bool :=
  match criteria with
  | none => false
  | some text =>
    match compile text with
    | .error _ => true
    | .ok _    => es.any Exchange.isRefused

section

variable {text : String} {es more : List Exchange}

theorem unmet_of_error {e : Criteria.Error} (h : compile text = .error e) : unmet (some text) es = true := by
  simp [unmet, h]

theorem unmet_of_ok {c : Criteria.Condition} (h : compile text = .ok c) :
    unmet (some text) es = es.any Exchange.isRefused := by
  simp [unmet, h]

-- Requests that do not look for tracks tell nothing about criteria.
theorem unmet_append {criteria : Option String} (h : ∀ e ∈ more, e.request.IsApart) :
    unmet criteria (es ++ more) = unmet criteria es := by
  unfold unmet
  rw [List.any_append, any_isRefused_eq_false h, Bool.or_false]

end

-- A report is of a label and its criteria.
def reportKey (r : Log.CriteriaFailure) : String × Option String := (r.label, some r.criteria)

-- What the work on a playlist comes to is what has been done in its course.
structure Counted (v : PlaylistView) (es : List Exchange) (found : Nat × Bool) : Prop where
  only    : FillsOnly [v] es
  tracks  : ∀ items : Contents, (items.replay (answered (called es)) v.spotifyId).length = found.1
  unmet   : found.2 = unmet v.criteria es
  reports : (reports es).map reportKey = if found.2 then [(v.labelName, v.criteria)] else []

end Playlist

namespace Program.Plays

open Account (Service.call Service.debug)
open Criteria (compile)
open Playlist

variable {es : List Exchange} {v : PlaylistView} {playlist : String} {tracks : List String}

-- The failure of criteria is reported once.
theorem reportFailure_inv {name text reason : String} {o : Except Failure Resolved}
    (h : (reportFailure name text reason).Plays es o) :
    o = .ok ([], true) ∧ es = [⟨.log (.ofFailure logger ⟨name, text, reason⟩), ()⟩] := by
  have ⟨_, _, he, h⟩ := h.ask_inv
  have ⟨hn, ho⟩ := h.done_inv
  exact ⟨ho, hn ▸ he⟩

-- That there are no tracks tells nothing. Criteria have failed if they do not compile or a search fails.
theorem resolve_ok_inv {k : Int} {name : String} {criteria : Option String} {r : Resolved}
    (h : (resolve k name criteria).Plays es (.ok r)) :
    called es = [] ∧ r.2 = unmet criteria es ∧
      (reports es).map reportKey = if r.2 then [(name, criteria)] else [] := by
  have hc : called es = [] := List.eq_nil_iff_forall_not_mem.mpr fun c hc =>
    have ⟨_, hn⟩ := h.forall_mem_called asks_resolve c hc
    hn.elim
  refine ⟨hc, ?_⟩
  unfold resolve at h
  split at h
  case h_1 =>
    have ⟨ids, _, _, he, h₁, h⟩ := h.bind_ok_inv
    have ⟨hn, ho⟩ := h.done_inv
    cases ho
    rw [he, hn, h₁.library_ok_inv]
    exact ⟨rfl, rfl⟩
  case h_2 text =>
    split at h
    case h_1 e hcompile =>
      have ⟨rest, he, h⟩ := h.log_bind_inv
      have ⟨ho, hn⟩ := h.reportFailure_inv
      cases ho
      rw [unmet_of_error hcompile, he, hn]
      exact ⟨rfl, rfl⟩
    case h_2 c hcompile =>
      have ⟨x, rest, he, h⟩ := h.session_bind_ok_inv
      have ⟨reply, more, he', h⟩ := h.ask_inv
      rw [unmet_of_ok hcompile, he, he']
      cases reply
      case ok views =>
        have ⟨hn, ho⟩ := h.done_inv
        cases ho
        rw [hn]
        exact ⟨rfl, rfl⟩
      case error e =>
        cases e
        case numberTooLarge => cases h.fail_inv.right
        all_goals
          have ⟨ho, hn⟩ := Plays.reportFailure_inv h
          cases ho
          rw [hn]
          exact ⟨rfl, rfl⟩

-- The items of a playlist have been changed, and the program has gone on.
theorem change_bind_ok_inv {c : Spotify.Call} {calls : List Spotify.Call} {message : String}
    {f : Spotify.Snapshot → Program Unit}
    (h : ((Service.debug message >>= fun _ => Service.call c .snapshot) >>= f).Plays es (.ok ()))
    (hrest : ∀ {a rest}, (f a).Plays rest (.ok ()) → Attempted calls (called rest) (.ok ())) :
    Attempted (c :: calls) (called es) (.ok ()) := by
  have ⟨a, before, rest, he, h₁, h⟩ := h.bind_ok_inv
  have ⟨more, he₁, h₁⟩ := h₁.log_bind_inv
  have ⟨_, hc, ht⟩ := h₁.call_ok_inv
  rw [he, he₁, called_append, called_cons, hc]
  exact .next ht (hrest h)

theorem addPieces_ok_inv {parts : List (List String)} (h : (addPieces playlist parts).Plays es (.ok ())) :
    Attempted (parts.map (.addItems playlist)) (called es) (.ok ()) := by
  induction parts generalizing es
  case nil =>
    rw [h.done_inv.left]
    exact .done
  case cons part rest hr => exact h.change_bind_ok_inv hr

-- A playlist has been filled by all calls that are to fill it.
theorem fill_ok_inv (h : (fill playlist tracks).Plays es (.ok ())) :
    Attempted (filling playlist tracks) (called es) (.ok ()) := by
  unfold fill at h
  unfold filling
  dsimp only at h ⊢
  generalize pieces moreItems _ = parts at h ⊢
  cases parts
  case nil =>
    rw [h.done_inv.left]
    exact .done
  case cons first parts =>
    refine h.change_bind_ok_inv fun h => ?_
    have ⟨_, _, rest, he, h₁, h⟩ := h.bind_ok_inv
    rw [he, called_append]
    refine h₁.addPieces_ok_inv.append ?_
    split at h
    case isFalse hn =>
      rw [if_neg hn, h.done_inv.left]
      exact .done
    case isTrue hn =>
      rw [if_pos hn]
      refine h.change_bind_ok_inv fun h => ?_
      rw [h.done_inv.left]
      exact .done

theorem pushOne_ok_inv {found : Nat × Bool} (h : (pushOne v).Plays es (.ok found)) : Counted v es found := by
  have ⟨r, before, rest, he, h₁, h⟩ := h.bind_ok_inv
  have ⟨_, made, more, he₁, h₂, h⟩ := h.bind_ok_inv
  have ⟨_, he₂, h⟩ := h.log_bind_inv
  have ⟨hn, ho⟩ := h.done_inv
  cases ho
  have ⟨hc, hu, hreports⟩ := h₁.resolve_ok_inv
  have hfilled := h₂.fill_ok_inv
  have hapart : ∀ e ∈ rest, e.request.IsApart := by
    rw [he₁, he₂, hn]
    exact List.forall_mem_append.mpr ⟨h₂.forall_mem asks_apartFill, List.forall_mem_singleton.mpr rfl⟩
  have hcalled : called es = called made := by
    rw [he, he₁, he₂, hn]
    simp [hc, Exchange.call?]
  refine ⟨fun c hm i hi => ?_, fun items => ?_, ?_, ?_⟩
  case refine_1 =>
    obtain ⟨_, hk, hlen⟩ := items_filling (hfilled.mem c (hcalled ▸ hm))
    cases hk.symm.trans hi
    exact ⟨List.mem_singleton_self _, hlen⟩
  case refine_2 =>
    rw [hcalled, hfilled.ok_inv.left, Contents.replay_filling, Function.update_self, List.length_map]
  case refine_3 => rw [he, unmet_append hapart, hu]
  case refine_4 => rw [he, reports_append, reports_eq_nil hapart, List.append_nil, hreports]

/-! ## Playlists for labels -/

variable {l : Label} {workers : Int} {first : List Label → List Label}

-- One playlist has been created.
theorem provideOne_ok_inv {id : String} (h : (provideOne l).Plays es (.ok id)) :
    ∃ name reply, called es = [(creationCall name l, reply)] := by
  have ⟨_, before, rest, he, h₁, h⟩ := h.bind_ok_inv
  have ⟨x, _, he₁, h₁⟩ := h₁.session_bind_ok_inv
  have ⟨_, he₂, h₁⟩ := h₁.log_bind_inv
  have ⟨reply, hc, _⟩ := h₁.call_ok_inv
  have ⟨_, _, he₃, h⟩ := h.session_bind_ok_inv
  have ⟨_, _, _, he₄, h₂, h⟩ := h.bind_ok_inv
  have ⟨_, he₅, h⟩ := h.log_bind_inv
  refine ⟨x.spotifyId, reply, ?_⟩
  rw [he, he₁, he₂, he₃, he₄, he₅, h₂.library_ok_inv, h.done_inv.left]
  simp [Exchange.call?, hc, creationCall]

theorem countP_creations {works : List (Work Label String)} {results : List (Label × String)}
    (h : List.Forall₂ (Work.Yields provideOne) works results) :
    (called (works.flatMap (·.exchanges))).countP (·.1.IsCreation) = results.length := by
  induction h
  case nil => rfl
  case cons w r ws rs hr _ hi =>
    have ⟨name, reply, hc⟩ := hr.plays.provideOne_ok_inv
    have hcr : (creationCall name r.1).IsCreation := trivial
    rw [List.flatMap_cons, called_append, List.countP_append, hi, hc]
    simp [hcr, Nat.add_comm]

-- As many playlists are counted as have been created.
theorem provideIn_ok_inv {n : Nat} (h : (provideIn first workers).Plays es (.ok n)) :
    n = (called es).countP (·.1.IsCreation) := by
  have ⟨x, _, he, h⟩ := h.session_bind_ok_inv
  have ⟨labels, _, _, he₁, h₁, h⟩ := h.bind_ok_inv
  rw [he, he₁, h₁.library_ok_inv]
  split at h
  case isTrue =>
    have ⟨hn, ho⟩ := h.done_inv
    cases ho
    rw [hn]
    rfl
  case isFalse =>
    have ⟨_, he₂, h⟩ := h.log_bind_inv
    have ⟨results, _, _, he₃, h₃, h⟩ := h.bind_ok_inv
    have ⟨hn, ho⟩ := h.done_inv
    cases ho
    have ⟨works, _, hes, hworks⟩ := h₃.inParallel_ok_inv
    rw [he₂, he₃, hes, hn]
    simp [Exchange.call?, countP_creations hworks]

-- To push playlists creates none.
theorem pushEachIn_creates_none {arrange : List PlaylistView → List PlaylistView}
    {o : Except Failure (List (PlaylistView × Nat × Bool))} (h : (pushEachIn arrange workers).Plays es o) :
    (called es).countP (·.1.IsCreation) = 0 := by
  refine List.countP_eq_zero.mpr fun c hc hcr => ?_
  have ⟨_, hq⟩ := h.forall_mem_called asks_pushEachIn c hc
  obtain ⟨c, reply⟩ := c
  cases c <;> first | exact hq.elim id id | cases of_decide_eq_true hcr

end Program.Plays

end LabelPlaylists
