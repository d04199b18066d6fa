import LabelPlaylists.Proofs.Playlist.Counted

namespace LabelPlaylists

open Library (Label PlaylistView)
open Program (Asks Work)

namespace Playlist

-- The work on a playlist, which comes to the number of its tracks and whether the criteria of its label have failed.
abbrev Push := Work PlaylistView (Nat × Bool)

namespace Push

def course (pushes : List Push) : List Exchange := pushes.flatMap Work.exchanges

def isUnmet (p : Push) : Bool := unmet p.item.criteria p.exchanges

-- The number of tracks with which the playlist is left.
def size (items : Contents) (p : Push) : Nat :=
  (items.replay (answered (called p.exchanges)) p.item.spotifyId).length

end Push

-- What pushes have come to is what has been done in their course.
structure Recounted (pushes : List Push) (results : List (PlaylistView × Nat × Bool)) : Prop where
  only     : FillsOnly (pushes.map (·.item)) (Push.course pushes)
  tracks   : ∀ items, results.map (fun r => r.2.1) = pushes.map (·.size items)
  failures : results.filterMap (fun r => if r.2.2 then some r.1.labelName else none)
    = (pushes.filter Push.isUnmet).map (·.item.labelName)
  reports  : (reports (Push.course pushes)).map reportKey
    = (pushes.filter Push.isUnmet).map fun p => (p.item.labelName, p.item.criteria)

variable {pushes : List Push} {results : List (PlaylistView × Nat × Bool)}

theorem counted {p : Push} {r : PlaylistView × Nat × Bool} (h : p.Yields pushOne r) :
    Counted p.item p.exchanges r.2 :=
  h.item ▸ h.plays.pushOne_ok_inv

theorem recounted (h : List.Forall₂ (Work.Yields pushOne) pushes results) : Recounted pushes results := by
  induction h
  case nil => exact ⟨List.forall_mem_nil _, fun _ => rfl, rfl, rfl⟩
  case cons p r pushes results hr _ hi =>
    have hc := counted hr
    have hu : p.isUnmet = r.2.2 := hc.unmet.symm
    refine ⟨?_, fun items => ?_, ?_, ?_⟩
    case refine_1 =>
      exact (hc.only.mono fun v hv => List.mem_singleton.mp hv ▸ List.mem_cons_self).append
        (hi.only.mono (List.subset_cons_self ..))
    case refine_2 => exact congrArg₂ _ (hc.tracks items).symm (hi.tracks items)
    case refine_3 =>
      rw [List.filterMap_cons, List.filter_cons, hi.failures, hu, ← hr.item]
      cases r.2.2 <;> rfl
    case refine_4 =>
      have he : Push.course (p :: pushes) = p.exchanges ++ Push.course pushes := rfl
      rw [he, reports_append, List.map_append, hc.reports, hi.reports, List.filter_cons, hu]
      cases r.2.2 <;> rfl

-- A playlist with an id of its own keeps the number of tracks with which it has been left.
theorem length_replay (h : List.Forall₂ (Work.Yields pushOne) pushes results)
    (hn : (pushes.map (·.item.spotifyId)).Nodup) (items : Contents) :
    pushes.map (fun p => (items.replay (answered (called (Push.course pushes))) p.item.spotifyId).length)
      = pushes.map (·.size items) := by
  induction h generalizing items
  case nil => rfl
  case cons p r pushes results hr hrs hi =>
    have ⟨hp, hn⟩ := List.nodup_cons.mp hn
    have he : Push.course (p :: pushes) = p.exchanges ++ Push.course pushes := rfl
    have hsizes (items' : Contents) : pushes.map (·.size items') = pushes.map (·.size items) :=
      ((recounted hrs).tracks items').symm.trans ((recounted hrs).tracks items)
    rw [List.map_cons, List.map_cons, he, called_append, answered_append]
    simp only [Contents.replay_append]
    refine congrArg₂ _ ?_ ((hi hn _).trans (hsizes _))
    -- The others are left alone.
    have hothers : requests (Push.course pushes) p.item.spotifyId = [] :=
      (recounted hrs).only.requests (by rwa [List.map_map])
    rw [← Contents.replay_requests, hothers]
    rfl

-- A push is broken off by the first playlist that has failed.
structure BrokenOff (pushes : List Push) (es : List Exchange) (o : Except Failure α) : Prop where
  plays  : ∀ p ∈ pushes, (pushOne p.item).Plays p.exchanges p.result
  course : Push.course pushes <:+: es
  first  : ∃ before p after e, pushes = before ++ p :: after ∧ (∀ q ∈ before, ∃ a, q.result = .ok a) ∧
    p.result = .error e ∧ o = .error e

-- The tracks of a static label cannot be told, and nothing else has been done.
structure Untold (p : Push) (f : Library.Failure) : Prop where
  static : p.item.criteria = none
  only   : p.exchanges = [⟨.library (.labelTracks (.integer p.item.labelId)), .error f⟩]
  result : p.result = .error (.library f)

theorem BrokenOff.mono {es more : List Exchange} {o : Except Failure α} {o' : Except Failure β}
    (h : BrokenOff pushes es o) (hs : es <:+: more) (ho : ∀ e, o = .error e → o' = .error e) :
    BrokenOff pushes more o' :=
  have ⟨before, p, after, e, hp, hok, he, hf⟩ := h.first
  ⟨h.plays, h.course.trans hs, before, p, after, e, hp, hok, he, ho e hf⟩

end Playlist

namespace Program.Plays

open Account (asks_log asks_session)
open Request (covers_apart)
open Playlist

variable {es : List Exchange} {v : PlaylistView} {d : Datum} {f : Library.Failure} {workers : Int}
variable {first : List Label → List Label} {arrange : List PlaylistView → List PlaylistView}

theorem resolve_untold {k : Int} {name : String} {criteria : Option String} {o : Except Failure Resolved}
    (h : (resolve k name criteria).Plays es o) (hm : ⟨.library (.labelTracks d), .error f⟩ ∈ es) :
    criteria = none ∧ es = [⟨.library (.labelTracks (.integer k)), .error f⟩] ∧ o = .error (.library f) := by
  unfold resolve at h
  split at h
  case h_1 =>
    refine ⟨rfl, ?_⟩
    rcases h.bind_inv with ⟨_, ho, h₁⟩ | ⟨_, _, _, he, h₁, h⟩
    case inl =>
      have ⟨_, he, ho₁⟩ := h₁.library_inv
      subst he
      cases List.mem_singleton.mp hm
      cases ho₁
      exact ⟨rfl, ho⟩
    case inr =>
      rw [he, h₁.library_ok_inv, h.done_inv.left] at hm
      cases List.mem_singleton.mp hm
  case h_2 text =>
    -- No tracks are asked for by their label.
    have hreport {name text reason} :
        (reportFailure name text reason).Asks fun r => ∀ d, r ≠ .library (.labelTracks d) :=
      .ask nofun fun _ => .done
    refine absurd rfl (h.forall_mem (P := fun r => ∀ d, r ≠ .library (.labelTracks d)) ?_ _ hm d)
    split
    case h_1 => exact Asks.bind (.ask nofun fun _ => .done) fun _ => hreport
    case h_2 =>
      refine Asks.bind (.ask nofun fun reply => by cases reply <;> constructor) fun _ => ?_
      refine Asks.bind (.ask nofun fun _ => .done) fun found => ?_
      split
      case h_1 => exact .done
      case h_2 => exact .fail
      case h_3 => exact hreport

theorem pushOne_untold {p : Push} (h : (pushOne p.item).Plays p.exchanges p.result)
    (hm : ⟨.library (.labelTracks d), .error f⟩ ∈ p.exchanges) : Untold p f := by
  rcases h.bind_inv with ⟨_, ho, h₁⟩ | ⟨_, _, _, he, h₁, h⟩
  case inl =>
    have ⟨hn, hes, ho₁⟩ := h₁.resolve_untold hm
    cases ho₁
    exact ⟨hn, hes, ho⟩
  case inr =>
    rw [he] at hm
    rcases List.mem_append.mp hm with hm | hm
    case inl => cases (h₁.resolve_untold hm).right.right
    case inr =>
      exact (h.forall_mem (asks_apartFill.bind fun _ => (asks_log (covers_apart.log ..)).bind fun _ => .done) _ hm).elim

theorem pushEachIn_untold {o : Except Failure (List (PlaylistView × Nat × Bool))}
    (h : (pushEachIn arrange workers).Plays es o) (hm : ⟨.library (.labelTracks d), .error f⟩ ∈ es) :
    ∃ pushes, BrokenOff pushes es o ∧ ∃ p ∈ pushes, Untold p f := by
  have ⟨x, before, _, he, h, hm⟩ := h.mem_bind_inv (asks_session covers_apart.session) hm id
  have ⟨_, before', _, he', h, hm⟩ := h.mem_bind_inv (P := Request.IsApart) (asks_library trivial) hm id
  rcases h.inParallel_inv with ⟨hn, _⟩ | ⟨pushes, lines, _, hes, hplays, hlines, hor⟩
  case inl =>
    rw [hn] at hm
    cases hm
  rw [hes] at hm
  replace hm := (List.mem_append.mp hm).resolve_right fun hm => by
    have ⟨_, _, _, hl⟩ := hlines _ hm
    cases hl
  have ⟨p, hp, hmp⟩ := List.mem_flatMap.mp hm
  have huntold := (hplays p hp).pushOne_untold hmp
  have hcourse : Push.course pushes <:+: es := ⟨before ++ before', lines, by simp [Push.course, he, he', hes]⟩
  rcases hor with ⟨results, _, _, hmap⟩ | ⟨good, q, after, e, ho, hpushes, he, hok⟩
  case inl =>
    have ⟨_, _, hr⟩ := List.mem_map.mp (hmap ▸ List.mem_map_of_mem hp)
    cases (congrArg Prod.snd hr).trans huntold.result
  case inr => exact ⟨pushes, ⟨hplays, hcourse, good, q, after, e, hpushes, hok, he, ho⟩, p, hp, huntold⟩

-- That the tracks of a static label cannot be told is not reported, but breaks off the push.
theorem pushIn_untold {o : Except Failure Summary} (h : (pushIn first arrange workers).Plays es o)
    (hm : ⟨.library (.labelTracks d), .error f⟩ ∈ es) :
    ∃ pushes, BrokenOff pushes es o ∧ ∃ p ∈ pushes, Untold p f := by
  have ⟨_, before, rest, he, h, hm⟩ := h.mem_bind_inv asks_apartProvideIn hm id
  rw [he]
  rcases h.bind_inv with ⟨e, ho, h₁⟩ | ⟨_, _, _, he', h₁, h₂⟩
  case inl =>
    have ⟨pushes, hb, hp⟩ := h₁.pushEachIn_untold hm
    exact ⟨pushes, hb.mono (List.suffix_append ..).isInfix fun _ he => by cases he; exact ho, hp⟩
  case inr =>
    rw [he'] at hm
    replace hm := (List.mem_append.mp hm).resolve_right fun hm =>
      h₂.forall_mem ((asks_log (covers_apart.log ..)).bind fun _ => .done) _ hm
    have ⟨_, hb, _⟩ := h₁.pushEachIn_untold hm
    have ⟨_, _, _, _, _, _, _, ho⟩ := hb.first
    cases ho

end Program.Plays

end LabelPlaylists
