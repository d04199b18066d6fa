import LabelPlaylists.Criteria.Sql
import LabelPlaylists.Proofs.Criteria.Comparison
import LabelPlaylists.Proofs.Criteria.Meaning
import LabelPlaylists.Proofs.Library.Answer
import LabelPlaylists.Proofs.Result
import LabelPlaylists.Proofs.Text.Octets

namespace LabelPlaylists.Criteria

open Sql (Scope Test Value)

variable {f : Facts} {s : Scope}

-- The store holds the facts about a track.
structure Facts.Stored (f : Facts) (s : Scope) : Prop where
  name         : s.value .name = .text f.name
  album        : s.value .album = .text f.album
  artists      : ∀ d, d ∈ s.rows .artists ↔ d ∈ f.artists.map Datum.text
  genres       : ∀ d, d ∈ s.rows .genres ↔ d ∈ f.genres.map Datum.text
  labels       : ∀ d, d ∈ s.rows .labels ↔ d ∈ f.labels.map Datum.text
  explicit     : s.value .explicit = .integer (if f.isExplicit then 1 else 0)
  added        : Sql.dayOf (s.value .added) = .ofOption (f.added.map StoredDay.dayText)
  released     : Sql.dayOf (s.value .released) = .ofOption (f.released.map StoredDay.dayText)
  year         : Sql.yearOf (s.value .released) = (f.year.map Datum.integer).getD .null
  addedFits    : ∀ d ∈ f.added, d.Fits
  releasedFits : ∀ d ∈ f.released, d.Fits
  plain        : ∀ t ∈ f.name :: f.album :: f.artists ++ f.genres ++ f.labels, Text.IsPlain t

-- The store finds two texts equal if they are so but for the case of A to Z.
theorem compare?_folded {t literal : String} (h : Text.IsPlain t ∨ Text.IsPlain literal) :
    ∃ o, Datum.compare? true (.text t) (.text literal) = some o ∧
      (o = .eq ↔ Text.fold t.toList = Text.fold literal.toList) := by
  have hs := Text.sameText_iff h
  by_cases he : Text.fold t.toList = Text.fold literal.toList
  case pos => exact ⟨.eq, if_pos (hs.mpr he), iff_of_true rfl he⟩
  case neg =>
    refine ⟨_, if_neg (mt hs.mp he), iff_of_false (fun ho => he ?_) he⟩
    exact String.ofList_injective (Std.LawfulEqOrd.eq_of_compare ho)

theorem compare?_folded_eq {t literal : String} (h : Text.IsPlain t ∨ Text.IsPlain literal) :
    (Datum.compare? true (.text t) (.text literal)).map Relation.eq.holds
      = some (decide (Text.fold t.toList = Text.fold literal.toList)) := by
  have ⟨o, ho, he⟩ := compare?_folded h
  rw [ho, Option.map_some, ← decide_eq_decide.mpr he]
  cases o <;> rfl

theorem compare?_folded_ne {t literal : String} (h : Text.IsPlain t ∨ Text.IsPlain literal) :
    (Datum.compare? true (.text t) (.text literal)).map Relation.ne.holds
      = some (decide (Text.fold t.toList ≠ Text.fold literal.toList)) := by
  have ⟨o, ho, he⟩ := compare?_folded h
  rw [ho, Option.map_some, ← decide_eq_decide.mpr (not_congr he)]
  cases o <;> rfl

theorem containment_lowered (t literal : String) :
    Sql.containment (Sql.lowered (.text t)) (Sql.lowered (.text literal))
      = some (decide (Text.fold literal.toList <:+: Text.fold t.toList)) := by
  show some (Text.occursIn (Text.folded literal).toList (Text.folded t).toList) = _
  simp only [Text.folded, String.toList_ofList]
  exact congrArg some (Bool.eq_iff_iff.mpr (Text.occursIn_iff.trans (decide_eq_true_iff).symm))

section

variable {t : String} {c : Sql.Column} (literal : String) (rest : List Datum)

theorem eval_same (hc : s.value c = .text t) (h : Text.IsPlain t ∨ Text.IsPlain literal) :
    (Test.compareFolded .eq (.column c) .parameter).eval s (.text literal :: rest)
      = some (decide (Text.fold t.toList = Text.fold literal.toList)) := by
  show (Datum.compare? true (s.value c) (.text literal)).map _ = _
  rw [hc]
  exact compare?_folded_eq h

theorem eval_differs (hc : s.value c = .text t) (h : Text.IsPlain t ∨ Text.IsPlain literal) :
    (Test.compareFolded .ne (.column c) .parameter).eval s (.text literal :: rest)
      = some (decide (Text.fold t.toList ≠ Text.fold literal.toList)) := by
  show (Datum.compare? true (s.value c) (.text literal)).map _ = _
  rw [hc]
  exact compare?_folded_ne h

theorem eval_contains (hc : s.value c = .text t) :
    (Test.holds (.lower (.column c)) (.lower .parameter)).eval s (.text literal :: rest)
      = some (decide (Text.fold literal.toList <:+: Text.fold t.toList)) := by
  show Sql.containment (Sql.lowered (s.value c)) (Sql.lowered (.text literal)) = _
  rw [hc]
  exact containment_lowered t literal

end

-- A subquery goes through the texts of an attribute.
theorem any_rows {rows : Sql.Rows} {texts : List String} {test : Test} {ps : List Datum}
    {p : String → Prop} [DecidablePred p]
    (hr : ∀ d, d ∈ s.rows rows ↔ d ∈ texts.map Datum.text)
    (hp : ∀ t ∈ texts, test.eval (s.at' rows (.text t)) ps = some (decide (p t))) :
    ((s.rows rows).any fun d => test.eval (s.at' rows d) ps == some true)
      = decide (∃ t ∈ texts, p t) := by
  rw [Bool.eq_iff_iff, List.any_eq_true, decide_eq_true_iff]
  constructor
  case mp =>
    intro ⟨d, hd, he⟩
    have ⟨t, ht, hd⟩ := List.mem_map.mp ((hr d).mp hd)
    subst hd
    rw [hp t ht] at he
    exact ⟨t, ht, by simpa using he⟩
  case mpr =>
    intro ⟨t, ht, h⟩
    exact ⟨.text t, (hr _).mpr (List.mem_map_of_mem ht), by rw [hp t ht]; simpa using h⟩

-- The texts of an attribute.
def TextAttribute.texts (f : Facts) : TextAttribute → List String
  | name   => [f.name]
  | album  => [f.album]
  | artist => f.artists
  | genre  => f.genres
  | label  => f.labels

theorem Facts.Stored.isPlain (h : f.Stored s) (a : TextAttribute) :
    ∀ t ∈ a.texts f, Text.IsPlain t := by
  intro t ht
  apply h.plain
  cases a <;> simp_all [TextAttribute.texts]

theorem Facts.Stored.rows (h : f.Stored s) {a : TextAttribute} {rows : Sql.Rows}
    (ha : a.rows? = some rows) : ∀ d, d ∈ s.rows rows ↔ d ∈ (a.texts f).map Datum.text := by
  cases a <;> cases ha
  case artist => exact h.artists
  case genre  => exact h.genres
  case label  => exact h.labels

theorem Facts.Stored.value (h : f.Stored s) {a : TextAttribute} (ha : a.rows? = none) :
    ∃ t, a.texts f = [t] ∧ s.value a.column = .text t := by
  cases a <;> cases ha
  case name  => exact ⟨f.name, rfl, h.name⟩
  case album => exact ⟨f.album, rfl, h.album⟩

theorem TextAttribute.column_eq {a : TextAttribute} {rows : Sql.Rows} (ha : a.rows? = some rows) :
    rows.column = a.column := by
  cases a <;> cases ha <;> rfl

theorem eval_textTest (h : f.Stored s) {a : TextAttribute} {o : Operator} {r : TextRelation}
    (hr : o.textRelation? = some r) (literal : String) (rest : List Datum) :
    (Condition.textTest a r).eval s (.text literal :: rest) = o.ofTexts (a.texts f) literal := by
  unfold Condition.textTest
  cases ha : a.rows?
  case none =>
    have ⟨t, ht, hv⟩ := h.value ha
    have hp := h.isPlain a t (ht ▸ List.mem_cons_self)
    rw [ht]
    cases o <;> cases hr <;> dsimp only [Operator.ofTexts]
    case eq       => rw [eval_same literal rest hv (.inl hp)]; simp
    case ne       => rw [eval_differs literal rest hv (.inl hp)]; simp
    case contains => rw [eval_contains literal rest hv]; simp
  case some rows =>
    have hc (t : String) : (s.at' rows (.text t)).value a.column = .text t :=
      if_pos (TextAttribute.column_eq ha).symm
    have hany := any_rows (h.rows ha) fun t ht =>
      eval_same literal rest (hc t) (.inl (h.isPlain a t ht))
    cases o <;> cases hr <;> dsimp only [Operator.ofTexts]
    case eq => exact congrArg some hany
    case ne =>
      refine (congrArg (fun b => some !b) hany).trans ?_
      rw [← decide_not]
      exact congrArg some (decide_eq_decide.mpr (by simp))
    case contains =>
      exact congrArg some (any_rows (h.rows ha) fun t _ => eval_contains literal rest (hc t))

theorem ofOrder_eq {o : Operator} {r : Relation} (hr : o.relation? = some r) (order : Ordering) :
    o.ofOrder order = some (r.holds order) := by
  cases o <;> cases hr <;> cases order <;> rfl

theorem compare?_integer (m n : Int) :
    Datum.compare? false (.integer m) (.integer n) = some (compare m n) := by
  show some (compare (m * 2 ^ 0) (n * 2 ^ 0)) = _
  rw [Int.pow_zero, Int.mul_one, Int.mul_one]

theorem eval_isExplicit (h : f.Stored s) (ps : List Datum) :
    (Test.compare .eq (.column .explicit) .one).eval s ps = some f.isExplicit := by
  show (Datum.compare? false (s.value .explicit) (.integer 1)).map _ = _
  rw [h.explicit, compare?_integer]
  cases f.isExplicit <;> rfl

theorem eval_explicit (h : f.Stored s) {o : Operator} {r : Relation} (hr : o.relation? = some r)
    (b : Bool) (rest : List Datum) :
    (Test.compare r (.column .explicit) .parameter).eval s (.integer (if b then 1 else 0) :: rest)
      = o.ofOrder (compare f.isExplicit b) := by
  show (Datum.compare? false (s.value .explicit) (.integer (if b then 1 else 0))).map _ = _
  rw [h.explicit, compare?_integer, ofOrder_eq hr]
  cases f.isExplicit <;> cases b <;> rfl

theorem eval_day {day : Option Day} {c : Sql.Column} {e : Day} {literal : String} {o : Operator}
    {r : Relation} (hc : Sql.dayOf (s.value c) = .ofOption (day.map StoredDay.dayText))
    (hd : ∀ d ∈ day, d.Fits) (he : Day.ofIso? literal = some e) (hr : o.relation? = some r)
    (rest : List Datum) :
    (Test.compare r (.day (.column c)) .parameter).eval s (.text e.text :: rest)
      = o.ofDays day literal := by
  show (Datum.compare? false (Sql.dayOf (s.value c)) (.text e.text)).map _ = _
  rw [hc]
  unfold Operator.ofDays
  rw [he]
  cases day
  case none => rfl
  case some d =>
    show some (r.holds (compare (StoredDay.dayText d) e.text)) = o.ofOrder (d.order e)
    rw [StoredDay.compare_dayText (hd d rfl) (Day.ofIso?_isProper he), ofOrder_eq hr]

theorem eval_year (h : f.Stored s) {o : Operator} {r : Relation} (hr : o.relation? = some r)
    (n : Int) (rest : List Datum) :
    (Test.compare r (.year (.column .released)) .parameter).eval s (.integer n :: rest)
      = f.year.bind fun y => o.ofOrder (compare y n) := by
  show (Datum.compare? false (Sql.yearOf (s.value .released)) (.integer n)).map _ = _
  rw [h.year]
  cases f.year
  case none => rfl
  case some y =>
    show (Datum.compare? false (.integer y) (.integer n)).map _ = o.ofOrder (compare y n)
    rw [compare?_integer, ofOrder_eq hr]
    rfl

-- The name of an attribute in criteria.
def Attribute.name : Attribute → String
  | .text .name    => "name"
  | .text .album   => "album"
  | .text .artist  => "artist"
  | .text .genre   => "genre"
  | .text .label   => "label"
  | .explicit      => "explicit"
  | .day .added    => "added"
  | .day .released => "released"
  | .year          => "year"

theorem Attribute.eq_name {name : String} {a : Attribute} (h : ofName? name = some a) :
    name = a.name := by
  unfold ofName? at h
  split at h <;> cases h <;> rfl

theorem compared_text (a : TextAttribute) (o : Operator) (literal : String) :
    f.compared o (Attribute.text a).name (.text literal) = o.ofTexts (a.texts f) literal := by
  cases a <;> rfl

namespace Condition

-- A comparison that is accepted says of a track what its facts say.
theorem eval_ofComparison (h : f.Stored s) {name : String} {o : Operator} {v : Literal}
    {position : Nat} {c : Condition} (hc : ofComparison name o v position = .ok c)
    (rest : List Datum) : c.test.eval s (c.parameters ++ rest) = f.compared o name v := by
  cases ofComparison_eq_ok_iff.mp hc
  case text ha hr =>
    rw [Attribute.eq_name ha]
    exact (eval_textTest h hr _ rest).trans (compared_text _ o _).symm
  case same b ha ho =>
    rw [Attribute.eq_name ha, ho]
    exact eval_explicit (o := .eq) h rfl b rest
  case differs b ha ho =>
    rw [Attribute.eq_name ha, ho]
    exact eval_explicit (o := .ne) h rfl b rest
  case day a r s d ha hr hd =>
    rw [Attribute.eq_name ha]
    cases a
    case added    => exact eval_day h.added h.addedFits hd hr rest
    case released => exact eval_day h.released h.releasedFits hd hr rest
  case year ha hr _ =>
    rw [Attribute.eq_name ha]
    exact eval_year h hr _ rest

theorem arity_textTest (a : TextAttribute) (r : TextRelation) : (textTest a r).arity = 1 := by
  cases a <;> cases r <;> rfl

mutual

-- A condition has as many parameters as its test has question marks.
theorem length_parameters (c : Condition) : c.parameters.length = c.test.arity := by
  match c with
  | .isExplicit     => rfl
  | .explicit ..    => rfl
  | .text a r _     => exact (arity_textTest a r).symm
  | .day ..         => rfl
  | .year ..        => rfl
  | .not c          => exact length_parameters c
  | .and cs         => exact length_parametersOf cs
  | .or cs          => exact length_parametersOf cs

theorem length_parametersOf (cs : List Condition) :
    (parametersOf cs).length = Test.arities (tests cs) := by
  match cs with
  | []        => rfl
  | c :: rest =>
    rw [parametersOf, tests, Test.arities, List.length_append, length_parameters c,
      length_parametersOf rest]

end

mutual

-- The test of a condition says of a track what the tree means.
theorem eval_ofTree (h : f.Stored s) (t : Tree) {c : Condition} (hc : ofTree t = .ok c)
    (rest : List Datum) : c.test.eval s (c.parameters ++ rest) = t.meaning f := by
  match t with
  | .bare name position =>
    unfold ofTree at hc
    split at hc <;> cases hc
    case h_2 ha => exact (eval_isExplicit h _).trans (if_pos (Attribute.eq_name ha)).symm
  | .comparison .. => exact eval_ofComparison h hc rest
  | .not t =>
    have ⟨c', ht, he⟩ := bind_eq_ok_iff.mp hc
    cases he
    exact congrArg Truth.not (eval_ofTree h t ht rest)
  | .and ts =>
    have ⟨cs, ht, he⟩ := bind_eq_ok_iff.mp hc
    cases he
    exact (eval_ofTrees h ts ht rest).left
  | .or ts =>
    have ⟨cs, ht, he⟩ := bind_eq_ok_iff.mp hc
    cases he
    exact (eval_ofTrees h ts ht rest).right
  | .foreign => cases hc

theorem eval_ofTrees (h : f.Stored s) (ts : List Tree) {cs : List Condition}
    (hc : ofTrees ts = .ok cs) (rest : List Datum) :
    Test.evalAll s (parametersOf cs ++ rest) (tests cs)
        = (Tree.meanings f ts).foldr Truth.and (some true) ∧
      Test.evalAny s (parametersOf cs ++ rest) (tests cs)
        = (Tree.meanings f ts).foldr Truth.or (some false) := by
  match ts with
  | [] => cases hc; exact ⟨rfl, rfl⟩
  | t :: ts =>
    have ⟨c, ht, hc⟩ := bind_eq_ok_iff.mp hc
    have ⟨cs, hts, hc⟩ := bind_eq_ok_iff.mp hc
    cases hc
    have he := eval_ofTree h t ht (parametersOf cs ++ rest)
    have ⟨hall, hany⟩ := eval_ofTrees h ts hts rest
    have hd : (c.parameters ++ (parametersOf cs ++ rest)).drop c.test.arity
        = parametersOf cs ++ rest := by
      rw [← length_parameters c, List.drop_left]
    rw [parametersOf, tests, Test.evalAll, Test.evalAny, Tree.meanings, List.foldr_cons,
      List.foldr_cons, List.append_assoc, he, hd, hall, hany]
    exact ⟨rfl, rfl⟩

end

theorem accepts_ofComparison {name : String} {o : Operator} {v : Literal} {position : Nat}
    {c : Condition} (hc : ofComparison name o v position = .ok c) :
    ∀ d ∈ c.parameters, Library.Accepts d := by
  cases ofComparison_eq_ok_iff.mp hc
  case text         => simp [parameters]
  case same b _ _   => cases b <;> simp [parameters, Datum.IsStorable]
  case differs b _ _ => cases b <;> simp [parameters, Datum.IsStorable]
  case day          => simp [parameters]
  case year hn      => exact List.forall_mem_singleton.mpr hn

mutual

-- The store takes the parameters of a condition.
theorem accepts_ofTree (t : Tree) {c : Condition} (hc : ofTree t = .ok c) :
    ∀ d ∈ c.parameters, Library.Accepts d := by
  match t with
  | .bare .. =>
    unfold ofTree at hc
    split at hc <;> cases hc
    exact nofun
  | .comparison .. => exact accepts_ofComparison hc
  | .not t =>
    have ⟨c', ht, he⟩ := bind_eq_ok_iff.mp hc
    cases he
    exact accepts_ofTree (c := c') t ht
  | .and ts =>
    have ⟨_, ht, he⟩ := bind_eq_ok_iff.mp hc
    cases he
    exact accepts_ofTrees ts ht
  | .or ts =>
    have ⟨_, ht, he⟩ := bind_eq_ok_iff.mp hc
    cases he
    exact accepts_ofTrees ts ht
  | .foreign => cases hc

theorem accepts_ofTrees (ts : List Tree) {cs : List Condition} (hc : ofTrees ts = .ok cs) :
    ∀ d ∈ parametersOf cs, Library.Accepts d := by
  match ts with
  | [] => cases hc; exact nofun
  | t :: ts =>
    have ⟨_, ht, hc⟩ := bind_eq_ok_iff.mp hc
    have ⟨_, hts, hc⟩ := bind_eq_ok_iff.mp hc
    cases hc
    intro d hd
    rcases List.mem_append.mp hd with hd | hd
    · exact accepts_ofTree t ht d hd
    · exact accepts_ofTrees ts hts d hd

end

end Condition

end LabelPlaylists.Criteria
