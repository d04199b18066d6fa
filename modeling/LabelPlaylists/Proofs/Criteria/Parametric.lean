import LabelPlaylists.Proofs.Criteria.Filter
import LabelPlaylists.Proofs.Criteria.Position

namespace LabelPlaylists

namespace Sql

-- Every parenthesis that is closed has been opened before, and in the end all are closed.
structure Balanced (text : List Char) : Prop where
  opened : ∀ front, front <+: text → front.count ')' ≤ front.count '('
  closed : text.count ')' = text.count '('

-- Text without parentheses and question marks.
def IsBare (text : List Char) : Prop := ∀ c ∈ text, c ∉ ['(', ')', '?']

instance {text : List Char} : Decidable (IsBare text) := List.decidableBAll _ _

-- A piece of a test with as many question marks as given.
structure Piece (n : Nat) (text : List Char) : Prop extends Balanced text where
  marks : text.count '?' = n

-- The zero of a sum is the one that numerals have.
attribute [local instance (high)] Zero.ofOfNat0

namespace Piece

variable {text more : List Char} {n m : Nat}

theorem plain (text : List Char) (h : IsBare text) : Piece 0 text := by
  have hn {c : Char} (hc : c ∈ ['(', ')', '?']) (front : List Char) (hf : front <+: text) : front.count c = 0 :=
    List.count_eq_zero.mpr fun hm => h c (hf.subset hm) hc
  have hl := List.prefix_refl text
  refine ⟨⟨fun front hf => ?_, ?_⟩, hn (by decide) _ hl⟩
  · rw [hn (by decide) front hf]
    exact Nat.zero_le _
  · rw [hn (by decide) text hl, hn (by decide) text hl]

theorem mark : Piece 1 ['?'] where
  opened front hf := by
    rcases List.prefix_cons_iff.mp hf with rfl | ⟨rest, rfl, hr⟩
    · exact Nat.le_refl _
    · rw [List.prefix_nil.mp hr]
      decide
  closed := rfl
  marks  := rfl

theorem append (h : Piece n text) (h' : Piece m more) : Piece (n + m) (text ++ more) where
  opened front hf := by
    rcases List.prefix_or_prefix_of_prefix hf (List.prefix_append text more) with hf' | ⟨rest, rfl⟩
    case inl => exact h.opened front hf'
    case inr =>
      have hr := h'.opened rest ((List.prefix_append_right_inj text).mp hf)
      have hc := h.closed
      rw [List.count_append, List.count_append]
      omega
  closed := by rw [List.count_append, List.count_append, h.closed, h'.closed]
  marks  := by rw [List.count_append, h.marks, h'.marks]

theorem group (h : Piece n text) : Piece n ('(' :: (text ++ [')'])) where
  opened front hf := by
    rcases List.prefix_cons_iff.mp hf with rfl | ⟨front, rfl, hf'⟩
    case inl => exact Nat.le_refl _
    case inr =>
      have hc : (front.count ')') ≤ front.count '(' + 1 := by
        rcases List.prefix_concat_iff.mp hf' with rfl | hf'
        case inl =>
          have := h.closed
          simp
          omega
        case inr => exact Nat.le_succ_of_le (h.opened front hf')
      simpa using hc
  closed := by simpa using h.closed
  marks  := by simpa using h.marks

-- Pieces without question marks before and behind another one.
theorem before (h : Piece n text) (hm : Piece 0 more) : Piece n (more ++ text) :=
  Nat.zero_add n ▸ hm.append h

theorem behind (h : Piece n text) (hm : Piece 0 more) : Piece n (text ++ more) := h.append hm

-- A function and its argument.
theorem called {name : String} (h : Piece n text) (hn : IsBare name.toList) :
    Piece n (name.toList ++ '(' :: (text ++ [')'])) :=
  h.group.before (.plain _ hn)

-- Pieces with plain text between them.
theorem intercalate {between : List Char} {ns : List Nat} {texts : List (List Char)} (hb : Piece 0 between)
    (h : List.Forall₂ Piece ns texts) : Piece ns.sum (between.intercalate texts) := by
  induction h
  case nil => exact plain _ nofun
  case cons n text ns texts ht hs hi =>
    rw [List.sum_cons]
    cases hs
    case nil => simpa using ht
    case cons =>
      rw [List.intercalate_cons_cons]
      exact (ht.behind hb).append hi

end Piece

theorem piece_column (c : Column) : Piece 0 c.text.toList := by
  cases c <;> exact .plain _ (by decide)

theorem piece_relation (r : Relation) : Piece 0 r.sql.toList := by
  cases r <;> exact .plain _ (by decide)

theorem piece_rows (rows : Rows) : Piece 0 rows.text.toList := by
  cases rows
  case artists => exact .plain _ (by decide +kernel)
  case labels  => exact .plain _ (by decide +kernel)
  case genres  =>
    have ht : Rows.genres.text.toList
        = "SELECT 1 FROM track_artists ta JOIN artists ar ON ar.id = ta.artist_id, json_each".toList
          ++ ('(' :: ("ar.genres".toList ++ [')']) ++ " g WHERE ta.track_id = t.id AND ".toList) := by decide +kernel
    rw [ht]
    have hg : Piece 0 "ar.genres".toList := .plain _ (by decide)
    exact (hg.group.behind (.plain _ (by decide))).before (.plain _ (by decide +kernel))

theorem piece_value (v : Value) : Piece v.arity v.text.toList := by
  induction v
  case column c    => exact piece_column c
  case parameter   => exact .mark
  case one         => exact .plain _ (by decide)
  case day v hv    =>
    have ht : (Value.day v).text.toList = "date".toList ++ '(' :: (v.text.toList ++ [')']) := by
      simp only [Value.text, String.toList_append, List.append_assoc]
      rfl
    exact ht ▸ hv.called (by decide)
  case lower v hv  =>
    have ht : (Value.lower v).text.toList = "lower".toList ++ '(' :: (v.text.toList ++ [')']) := by
      simp only [Value.text, String.toList_append, List.append_assoc]
      rfl
    exact ht ▸ hv.called (by decide)
  case year v hv   =>
    have ht : (Value.year v).text.toList = "CAST".toList ++ '(' :: ("substr".toList
        ++ '(' :: (v.text.toList ++ ", 1, 4".toList ++ [')']) ++ " AS INTEGER".toList ++ [')']) := by
      simp only [Value.text, String.toList_append, List.append_assoc, List.cons_append]
      rfl
    rw [ht]
    have hv := (hv.behind (.plain ", 1, 4".toList (by decide))).group
    have hs := (hv.before (.plain "substr".toList (by decide))).behind
      (.plain " AS INTEGER".toList (by decide))
    exact hs.group.before (.plain _ (by decide))

namespace Test

theorem piece_compare (r : Relation) (a b : Value) : Piece (compare r a b).arity (compare r a b).text.toList := by
  have ht : (compare r a b).text.toList
      = a.text.toList ++ (" ".toList ++ (r.sql.toList ++ (" ".toList ++ b.text.toList))) := by
    simp only [text, String.toList_append, List.append_assoc]
  have hb := (piece_value b).before (.plain " ".toList (by decide))
  have hr := (hb.before (piece_relation r)).before (.plain " ".toList (by decide))
  exact ht ▸ (piece_value a).append hr

theorem piece_holds (a b : Value) : Piece (holds a b).arity (holds a b).text.toList := by
  have ht : (holds a b).text.toList
      = "instr".toList ++ ('(' :: (a.text.toList ++ (", ".toList ++ b.text.toList) ++ [')']) ++ " > 0".toList) := by
    simp only [text, String.toList_append, List.append_assoc, List.cons_append]
    rfl
  have hb := (piece_value b).before (.plain ", ".toList (by decide))
  have hg := ((piece_value a).append hb).group.behind (.plain " > 0".toList (by decide))
  exact ht ▸ hg.before (.plain _ (by decide))

mutual

-- A test is written with balanced parentheses and a question mark for every parameter.
theorem piece_text (t : Test) : Piece t.arity t.text.toList := by
  match t with
  | .compare r a b => exact piece_compare r a b
  | .compareFolded r a b =>
    have ht : (compareFolded r a b).text.toList = (compare r a b).text.toList ++ " COLLATE NOCASE".toList := by
      simp only [text, String.toList_append]
    exact ht ▸ (piece_compare r a b).behind (.plain _ (by decide))
  | .holds a b => exact piece_holds a b
  | .exists' rows t =>
    have ht : (exists' rows t).text.toList
        = "EXISTS ".toList ++ '(' :: (rows.text.toList ++ t.text.toList ++ [')']) := by
      simp only [text, String.toList_append, List.append_assoc]
      rfl
    exact ht ▸ ((piece_text t).before (piece_rows rows)).called (by decide)
  | .notExists rows t =>
    have ht : (notExists rows t).text.toList
        = "NOT EXISTS ".toList ++ '(' :: (rows.text.toList ++ t.text.toList ++ [')']) := by
      simp only [text, String.toList_append, List.append_assoc]
      rfl
    exact ht ▸ ((piece_text t).before (piece_rows rows)).called (by decide)
  | .not t =>
    have ht : (Test.not t).text.toList = "NOT ".toList ++ '(' :: (t.text.toList ++ [')']) := by
      simp only [text, String.toList_append, List.append_assoc]
      rfl
    exact ht ▸ (piece_text t).called (by decide)
  | .and ts =>
    have ⟨ns, hs, hp⟩ := pieces_texts ts
    show Piece (arities ts) (" AND ".intercalate (texts ts)).toList
    rw [hs, String.toList_intercalate]
    exact .intercalate (.plain _ (by decide)) hp
  | .or ts =>
    have ⟨ns, hs, hp⟩ := pieces_texts ts
    show Piece (arities ts) (" OR ".intercalate (texts ts)).toList
    rw [hs, String.toList_intercalate]
    exact .intercalate (.plain _ (by decide)) hp

theorem pieces_texts (ts : List Test) :
    ∃ ns : List Nat, arities ts = ns.sum ∧ List.Forall₂ Piece ns ((texts ts).map String.toList) := by
  match ts with
  | []      => exact ⟨[], rfl, .nil⟩
  | t :: ts =>
    have ⟨ns, hs, hp⟩ := pieces_texts ts
    have ht : ("(" ++ t.text ++ ")").toList = '(' :: (t.text.toList ++ [')']) := by
      simp only [String.toList_append, List.append_assoc]
      rfl
    refine ⟨t.arity :: ns, by rw [arities, hs, List.sum_cons], ?_⟩
    rw [texts, List.map_cons, ht]
    exact .cons (piece_text t).group hp

end

end Test

end Sql

namespace Criteria

-- The value that is bound for a literal: a text as it is, a flag as 1 or 0, a day as year, month and day, and
-- a number as it is.
def bound? (name : String) (v : Literal) : Option Datum :=
  match Attribute.ofName? name, v with
  | some (.text _), .text s => some (.text s)
  | some .explicit, .flag b => some (.integer (if b then 1 else 0))
  | some (.day _), .text s  => (Day.ofIso? s).map fun d => .text d.text
  | some .year, .number n   => some (.integer n)
  | _, _                    => none

namespace Tree

mutual

-- A tree without its literals and positions.
def shape : Tree → Tree
  | .bare name _           => .bare name 0
  | .comparison name o _ _ => .comparison name o (.text "") 0
  | .not t                 => .not (shape t)
  | .and ts                => .and (shapes ts)
  | .or ts                 => .or (shapes ts)
  | .foreign               => .foreign

def shapes : List Tree → List Tree
  | []      => []
  | t :: ts => shape t :: shapes ts

end

end Tree

namespace Condition

open Criteria.Tree (shape shapes leaves allLeaves)

variable {name : String} {o : Operator} {v w : Literal} {c d : Condition}

-- The test of a comparison does not depend on the literal.
theorem Comparison.test_eq (hc : Comparison name o v c) (hd : Comparison name o w d) : c.test = d.test := by
  cases hc <;> cases hd <;> simp_all [test]

theorem Comparison.parameters_eq (h : Comparison name o v c) : c.parameters.map some = [bound? name v] := by
  cases h <;> simp_all [parameters, bound?]

mutual

-- Trees of one shape have the same test.
theorem test_eq_of_shape (s t : Tree) {c d : Condition} (hc : ofTree s = .ok c) (hd : ofTree t = .ok d)
    (h : shape s = shape t) : c.test = d.test := by
  match s, t with
  | .bare .., .bare .. =>
    unfold ofTree at hc hd
    split at hc <;> cases hc
    split at hd <;> cases hd
    rfl
  | .comparison .., .comparison .. =>
    cases h
    exact (ofComparison_eq_ok_iff.mp hc).test_eq (ofComparison_eq_ok_iff.mp hd)
  | .not s, .not t =>
    have ⟨_, hs, hc⟩ := bind_eq_ok_iff.mp hc
    have ⟨_, ht, hd⟩ := bind_eq_ok_iff.mp hd
    cases hc
    cases hd
    exact congrArg Sql.Test.not (test_eq_of_shape s t hs ht (by injection h))
  | .and ss, .and ts =>
    have ⟨_, hs, hc⟩ := bind_eq_ok_iff.mp hc
    have ⟨_, ht, hd⟩ := bind_eq_ok_iff.mp hd
    cases hc
    cases hd
    exact congrArg Sql.Test.and (tests_eq_of_shapes ss ts hs ht (by injection h))
  | .or ss, .or ts =>
    have ⟨_, hs, hc⟩ := bind_eq_ok_iff.mp hc
    have ⟨_, ht, hd⟩ := bind_eq_ok_iff.mp hd
    cases hc
    cases hd
    exact congrArg Sql.Test.or (tests_eq_of_shapes ss ts hs ht (by injection h))

theorem tests_eq_of_shapes (ss ts : List Tree) {cs ds : List Condition} (hc : ofTrees ss = .ok cs)
    (hd : ofTrees ts = .ok ds) (h : shapes ss = shapes ts) : tests cs = tests ds := by
  match ss, ts with
  | [], [] => cases hc; cases hd; rfl
  | s :: ss, t :: ts =>
    have ⟨_, hs, hc⟩ := bind_eq_ok_iff.mp hc
    have ⟨_, hss, hc⟩ := bind_eq_ok_iff.mp hc
    have ⟨_, ht, hd⟩ := bind_eq_ok_iff.mp hd
    have ⟨_, hts, hd⟩ := bind_eq_ok_iff.mp hd
    cases hc
    cases hd
    have ⟨h, h'⟩ := List.cons.inj h
    rw [tests, tests, test_eq_of_shape s t hs ht h, tests_eq_of_shapes ss ts hss hts h']

end

mutual

-- The parameters are those of the comparisons, from left to right.
theorem parameters_eq (t : Tree) {c : Condition} (h : ofTree t = .ok c) :
    c.parameters.map some = (leaves t).filterMap fun l => l.comparison.map fun (_, v) => bound? l.name v := by
  match t with
  | .bare .. =>
    unfold ofTree at h
    split at h <;> cases h
    rfl
  | .comparison .. => exact (ofComparison_eq_ok_iff.mp h).parameters_eq
  | .not t =>
    have ⟨c', ht, he⟩ := bind_eq_ok_iff.mp h
    cases he
    exact parameters_eq t (c := c') ht
  | .and ts =>
    have ⟨_, ht, he⟩ := bind_eq_ok_iff.mp h
    cases he
    exact parametersOf_eq ts ht
  | .or ts =>
    have ⟨_, ht, he⟩ := bind_eq_ok_iff.mp h
    cases he
    exact parametersOf_eq ts ht
  | .foreign => cases h

theorem parametersOf_eq (ts : List Tree) {cs : List Condition} (h : ofTrees ts = .ok cs) :
    (parametersOf cs).map some
      = (allLeaves ts).filterMap fun l => l.comparison.map fun (_, v) => bound? l.name v := by
  match ts with
  | [] => cases h; rfl
  | t :: ts =>
    have ⟨_, ht, h⟩ := bind_eq_ok_iff.mp h
    have ⟨_, hts, h⟩ := bind_eq_ok_iff.mp h
    cases h
    rw [parametersOf, List.map_append, parameters_eq t ht, parametersOf_eq ts hts, allLeaves,
      List.filterMap_append]

end

end Condition

open Condition (IsStorable ofTree ofTrees ofComparison_eq_ok_iff)

-- Of two accepted trees that differ in nothing but their literals and positions
-- 1. the filters are written alike
-- 2. there are as many parameters as question marks
-- 3. the parentheses are balanced
-- 4. the parameters are the values of the literals, from left to right
theorem filter_of_shape {s t : Tree} {c d : Condition} (hs : ofTree s = .ok c) (ht : ofTree t = .ok d)
    (h : s.shape = t.shape) :
    c.filter.text = d.filter.text ∧
    c.filter.text.toList.count '?' = c.filter.parameters.length ∧
    Sql.Balanced c.filter.text.toList ∧
    c.filter.parameters.map some
      = s.leaves.filterMap fun l => l.comparison.map fun (_, v) => bound? l.name v := by
  have hp := Sql.Test.piece_text c.test
  refine ⟨congrArg Sql.Test.text (Condition.test_eq_of_shape s t hs ht h), ?_, hp.toBalanced,
    Condition.parameters_eq s hs⟩
  exact hp.marks.trans (Condition.length_parameters c).symm

-- A comparison of a genre with a text and of the year with a number.
def genreAndYear (genre : String) (year : Int) : Tree :=
  .and [.comparison "genre" .contains (.text genre) 0, .not (.comparison "year" .ge (.number year) 0)]

theorem filter_of_shape_hostile :
    ∃ c d, ofTree (genreAndYear "\x27) OR 1 = 1 --?" (-1)) = .ok c ∧ ofTree (genreAndYear "rock" 1990) = .ok d ∧
      c.filter.text = d.filter.text ∧ c.filter.text.toList.count '?' = 2 ∧
      c.filter.parameters.map some = [some (.text "\x27) OR 1 = 1 --?"), some (.integer (-1))] := by
  have hc {s : String} {n : Int} (hn : IsStorable n) : ofTree (genreAndYear s n)
      = .ok (.and [.text .genre .contains s, .not (.year .ge n)]) := by
    have hg : ofTree (.comparison "genre" .contains (.text s) 0) = .ok (.text .genre .contains s) :=
      ofComparison_eq_ok_iff.mpr (.text rfl rfl)
    have hy : ofTree (.comparison "year" .ge (.number n) 0) = .ok (.year .ge n) :=
      ofComparison_eq_ok_iff.mpr (.year rfl rfl hn)
    rw [genreAndYear, ofTree, ofTrees, ofTrees, ofTrees, hg, ofTree, hy]
    rfl
  obtain ⟨ht, hq, -, hp⟩ := filter_of_shape (hc (s := "\x27) OR 1 = 1 --?") (n := -1) (by decide))
    (hc (s := "rock") (n := 1990) (by decide)) rfl
  exact ⟨_, _, hc (by decide), hc (by decide), ht, hq, hp⟩

end Criteria

end LabelPlaylists
