import LabelPlaylists.Proofs.Criteria.Filter

namespace LabelPlaylists

theorem Truth.isSome_not {a : Truth} (h : a.isSome) : a.not.isSome := by
  rcases a with _ | _ | _ <;> simp_all [Truth.not]

theorem Truth.isSome_and {a b : Truth} (ha : a.isSome) (hb : b.isSome) : (a.and b).isSome := by
  rcases a with _ | _ | _ <;> rcases b with _ | _ | _ <;> simp_all [Truth.and]

theorem Truth.isSome_or {a b : Truth} (ha : a.isSome) (hb : b.isSome) : (a.or b).isSome := by
  rcases a with _ | _ | _ <;> rcases b with _ | _ | _ <;> simp_all [Truth.or]

theorem Datum.isSome_compare?_text {folded : Bool} {s t : String} :
    (compare? folded (.text s) (.text t)).isSome := by
  cases folded
  case false => rfl
  case true =>
    show (if _ then _ else _ : Option Ordering).isSome
    split <;> rfl

namespace Criteria

open Sql (Scope Test)

-- A track of which no value is missing.
structure Whole (s : Scope) : Prop where
  name     : ∃ t, s.value .name = .text t
  album    : ∃ t, s.value .album = .text t
  explicit : ∃ n, s.value .explicit = .integer n
  released : ∃ t, s.value .released = .text t

namespace Condition

mutual

-- The attributes of which a condition compares the day.
def days : Condition → List DayAttribute
  | .isExplicit  => []
  | .explicit .. => []
  | .text ..     => []
  | .day a ..    => [a]
  | .year ..     => []
  | .not c       => days c
  | .and cs      => allDays cs
  | .or cs       => allDays cs

def allDays : List Condition → List DayAttribute
  | []      => []
  | c :: cs => days c ++ allDays cs

end

variable {s : Scope}

theorem isSome_textTest (h : Whole s) (a : TextAttribute) (r : TextRelation) (v : String)
    (rest : List Datum) : ((textTest a r).eval s (.text v :: rest)).isSome := by
  unfold textTest
  cases ha : a.rows?
  case some => cases r <;> rfl
  case none =>
    obtain ⟨t, ht⟩ : ∃ t, s.value a.column = .text t := by
      cases a <;> cases ha
      case name  => exact h.name
      case album => exact h.album
    cases r
    case contains =>
      show (Sql.containment (Sql.lowered (s.value a.column)) (Sql.lowered (.text v))).isSome
      rw [ht]
      rfl
    all_goals
      show ((Datum.compare? true (s.value a.column) (.text v)).map _).isSome
      rw [ht, Option.isSome_map]
      exact Datum.isSome_compare?_text

mutual

-- What a condition says of a track is known if the days that it compares are.
theorem isSome_eval (h : Whole s) (c : Condition)
    (hd : ∀ a ∈ c.days, ∃ d, Sql.dayOf (s.value a.column) = .text d) (rest : List Datum) :
    (c.test.eval s (c.parameters ++ rest)).isSome := by
  match c with
  | .isExplicit =>
    have ⟨n, hn⟩ := h.explicit
    show ((Datum.compare? false (s.value .explicit) (.integer 1)).map _).isSome
    rw [hn]
    rfl
  | .explicit same v =>
    have ⟨n, hn⟩ := h.explicit
    show ((Datum.compare? false (s.value .explicit) (.integer (if v then 1 else 0))).map _).isSome
    rw [hn]
    rfl
  | .text a r v => exact isSome_textTest h a r v rest
  | .day a r v =>
    have ⟨d, hd⟩ := hd a List.mem_cons_self
    show ((Datum.compare? false (Sql.dayOf (s.value a.column)) (.text v)).map _).isSome
    rw [hd, Option.isSome_map]
    exact Datum.isSome_compare?_text
  | .year r v =>
    have ⟨t, ht⟩ := h.released
    show ((Datum.compare? false (Sql.yearOf (s.value .released)) (.integer v)).map _).isSome
    rw [ht]
    rfl
  | .not c => exact Truth.isSome_not (isSome_eval h c hd rest)
  | .and cs => exact (isSome_evalAll h cs hd rest).left
  | .or cs => exact (isSome_evalAll h cs hd rest).right

theorem isSome_evalAll (h : Whole s) (cs : List Condition)
    (hd : ∀ a ∈ allDays cs, ∃ d, Sql.dayOf (s.value a.column) = .text d) (rest : List Datum) :
    (Test.evalAll s (parametersOf cs ++ rest) (tests cs)).isSome ∧
      (Test.evalAny s (parametersOf cs ++ rest) (tests cs)).isSome := by
  match cs with
  | [] => exact ⟨rfl, rfl⟩
  | c :: cs =>
    have hc := isSome_eval h c (fun a ha => hd a (List.mem_append_left _ ha)) (parametersOf cs ++ rest)
    have ⟨hall, hany⟩ := isSome_evalAll h cs (fun a ha => hd a (List.mem_append_right _ ha)) rest
    have hp : (c.parameters ++ (parametersOf cs ++ rest)).drop c.test.arity = parametersOf cs ++ rest := by
      rw [← length_parameters c, List.drop_left]
    rw [parametersOf, tests, Test.evalAll, Test.evalAny, List.append_assoc, hp]
    exact ⟨Truth.isSome_and hc hall, Truth.isSome_or hc hany⟩

end

end Condition

end Criteria

end LabelPlaylists
