import LabelPlaylists.Proofs.Criteria.Comparison
import LabelPlaylists.Proofs.Criteria.Negated

namespace LabelPlaylists.Criteria

namespace Token

theorem takeWhile_append_closed {p : Char → Bool} (hp : p ')' = false) (rest : List Char) :
    (rest ++ [')']).takeWhile p = rest.takeWhile p := by
  induction rest
  case nil => simp [hp]
  case cons c rest hi => simp [List.takeWhile_cons, hi]

theorem dropWhile_append_closed {p : Char → Bool} (hp : p ')' = false) (rest : List Char) :
    (rest ++ [')']).dropWhile p = rest.dropWhile p ++ [')'] := by
  induction rest
  case nil => simp [hp]
  case cons c rest hi => cases hc : p c <;> simp [hc, hi]

theorem head?_append_closed {rest : List Char} :
    (rest ++ [')']).head? = some '=' ↔ rest.head? = some '=' := by
  cases rest <;> simp

-- A string ends with its closing quote, whatever follows.
theorem stringBody?_append {quote : Char} {rest value : List Char} {n : Nat} (more : List Char)
    (h : stringBody? quote rest = some (value, n)) :
    stringBody? quote (rest ++ more) = some (value, n) ∧ n ≤ rest.length := by
  fun_induction stringBody? quote rest generalizing value n
  case case1 => cases h
  case case2 =>
    cases h
    simp [stringBody?.eq_def quote (quote :: _)]
  case case3 => cases h
  case case4 => cases h
  case case5 d rest hd hq hi =>
    obtain ⟨⟨v, m⟩, hv, he⟩ := Option.map_eq_some_iff.mp h
    cases he
    have ⟨hv, hm⟩ := hi hv
    exact ⟨by simp [stringBody?, hq, hd, hv], by simpa using hm⟩
  case case6 c rest hq hc hi =>
    obtain ⟨⟨v, m⟩, hv, he⟩ := Option.map_eq_some_iff.mp h
    cases he
    have ⟨hv, hm⟩ := hi hv
    exact ⟨by simp [stringBody?.eq_def quote (c :: _), hq, hc, hv], by simpa using hm⟩

-- If one text starts with a lexeme, another one starts with it as well. The lexeme takes no more than
-- the given number of characters beyond the first.
def Same (most : Nat) (a b : Start) : Prop :=
  (a = .blank → b = .blank) ∧ ∀ l n, a = .lexeme l n → b = .lexeme l n ∧ n ≤ most

namespace Same

variable {most : Nat} {a b a' b' : Start}

theorem blank : Same most .blank .blank := ⟨fun _ => rfl, nofun⟩

theorem lexeme {l : Lexeme} {n : Nat} (h : n ≤ most) : Same most (.lexeme l n) (.lexeme l n) :=
  ⟨nofun, fun _ _ he => by cases he; exact ⟨rfl, h⟩⟩

theorem openString : Same most .openString b := ⟨nofun, nofun⟩

theorem unknown : Same most .unknown b := ⟨nofun, nofun⟩

theorem ite {p q : Prop} [Decidable p] [Decidable q] (hp : q ↔ p) (h : p → Same most a b)
    (h' : ¬p → Same most a' b') : Same most (if p then a else a') (if q then b else b') := by
  by_cases hq : p
  case pos => rw [if_pos hq, if_pos (hp.mpr hq)]; exact h hq
  case neg => rw [if_neg hq, if_neg (mt hp.mp hq)]; exact h' hq

end Same

-- A closing parenthesis behind a text changes nothing about what the text starts with.
theorem start_append (c : Char) (rest : List Char) :
    Same rest.length (start c rest) (start c (rest ++ [')'])) := by
  have hd : Text.isDigit ')' = false := by decide +kernel
  have hn : isNameChar ')' = false := by decide +kernel
  have hw : Text.isWordChar ')' = false := by decide +kernel
  have hh : rest.head? = some '=' → 1 ≤ rest.length := by cases rest <;> simp
  unfold start
  rw [takeWhile_append_closed hd, takeWhile_append_closed hn, dropWhile_append_closed hd]
  refine .ite .rfl (fun _ => .blank) fun _ => ?_
  refine .ite .rfl (fun _ => .lexeme (Nat.zero_le _)) fun _ => ?_
  refine .ite .rfl (fun _ => .lexeme (Nat.zero_le _)) fun _ => ?_
  refine .ite (and_congr_right fun _ => head?_append_closed) (fun h => .lexeme (hh h.right)) fun _ => ?_
  refine .ite .rfl (fun _ => ?_) fun _ => ?_
  · exact .ite head?_append_closed (fun h => .lexeme (hh h)) fun _ => .lexeme (Nat.zero_le _)
  refine .ite .rfl (fun _ => ?_) fun _ => ?_
  · exact .ite head?_append_closed (fun h => .lexeme (hh h)) fun _ => .lexeme (Nat.zero_le _)
  refine .ite .rfl (fun _ => .lexeme (Nat.zero_le _)) fun _ => ?_
  refine .ite .rfl (fun _ => .lexeme (Nat.zero_le _)) fun _ => ?_
  refine .ite .rfl (fun _ => ?_) fun _ => ?_
  · have hl := List.Sublist.length_le (List.takeWhile_sublist Text.isDigit (l := rest))
    cases rest.dropWhile Text.isDigit
    case nil =>
      show Same _ _ (if Text.isWordChar ')' then _ else _)
      rw [hw]
      exact .lexeme hl
    case cons d _ => exact .ite .rfl (fun _ => .unknown) fun _ => .lexeme hl
  refine .ite .rfl (fun _ => ?_) fun _ => ?_
  · cases hs : stringBody? c rest
    case none => exact .openString
    case some found =>
      have ⟨hs, hl⟩ := stringBody?_append [')'] hs
      rw [hs]
      exact .lexeme hl
  refine .ite .rfl (fun _ => ?_) fun _ => .unknown
  exact .lexeme (List.Sublist.length_le (List.takeWhile_sublist isNameChar))

theorem start_closed : start ')' [] = .lexeme .closeParenthesis 0 := by decide +kernel

-- A closing parenthesis behind a text is the last token.
theorem scan_append {skip position : Nat} {l : List Char} {ts : List Token} (hl : skip ≤ l.length)
    (h : scan skip position l = .ok ts) :
    scan skip position (l ++ [')'])
      = .ok (ts ++ [⟨.closeParenthesis, position + l.length, 1⟩]) := by
  induction l generalizing skip position ts
  case nil =>
    obtain rfl : skip = 0 := Nat.le_zero.mp hl
    cases h
    rw [List.nil_append, scan, start_closed]
    rfl
  case cons c rest hi =>
    have hp : position + (c :: rest).length = position + 1 + rest.length := by
      rw [List.length_cons]; omega
    rw [List.cons_append, hp]
    cases skip
    case succ skip =>
      rw [scan] at h ⊢
      exact hi (Nat.le_of_succ_le_succ hl) h
    case zero =>
      have hs := start_append c rest
      rw [scan] at h ⊢
      cases hc : start c rest <;> rw [hc] at h
      case blank =>
        rw [hs.left hc]
        exact hi (Nat.zero_le _) h
      case lexeme l n =>
        obtain ⟨hs, hn⟩ := hs.right l n hc
        obtain ⟨us, hu, he⟩ := bind_eq_ok_iff.mp h
        cases he
        rw [hs]
        exact bind_eq_ok_iff.mpr ⟨_, hi hn hu, rfl⟩
      case openString => cases h
      case unknown    => cases h

-- The same token further on in a text.
def moved (n : Nat) (k : Token) : Token := { k with position := n + k.position }

theorem scan_moved {skip position : Nat} {l : List Char} {ts : List Token} (n : Nat)
    (h : scan skip position l = .ok ts) : scan skip (n + position) l = .ok (ts.map (moved n)) := by
  induction l generalizing skip position ts
  case nil =>
    rw [scan] at h ⊢
    cases h
    rfl
  case cons c rest hi =>
    cases skip
    case succ skip =>
      rw [scan] at h ⊢
      exact hi h
    case zero =>
      rw [scan] at h ⊢
      cases hc : start c rest <;> rw [hc] at h
      case blank => exact hi h
      case lexeme l m =>
        obtain ⟨us, hu, he⟩ := bind_eq_ok_iff.mp h
        cases he
        exact bind_eq_ok_iff.mpr ⟨_, hi hu, rfl⟩
      case openString => cases h
      case unknown    => cases h

end Token

namespace Tree

mutual

-- The same tree further on in a text.
def moved (n : Nat) : Tree → Tree
  | .bare name position           => .bare name (n + position)
  | .comparison name o v position => .comparison name o v (n + position)
  | .not t                        => .not (moved n t)
  | .and ts                       => .and (allMoved n ts)
  | .or ts                        => .or (allMoved n ts)
  | .foreign                      => .foreign

def allMoved (n : Nat) : List Tree → List Tree
  | []      => []
  | t :: ts => moved n t :: allMoved n ts

end

theorem length_allMoved (n : Nat) (ts : List Tree) : (allMoved n ts).length = ts.length := by
  induction ts
  case nil          => rfl
  case cons t ts hi => rw [allMoved, List.length_cons, List.length_cons, hi]

end Tree

open Criteria.Tree (moved allMoved)

variable {n m : Nat} {x : Symbol} {ts : List Token} {us : List Tree}

-- A tree is derived wherever its tokens stand.
theorem Derives.moved (p : Nat) (h : Derives n x ts us) :
    Derives n x (ts.map (·.moved p)) (allMoved p us) := by
  induction h
  case name hk                  => exact .name hk
  case comparison hk ho hl      => exact .comparison hk ho hl
  case not hk _ hi              => exact .not hk hi
  case group hk _ hl hi         =>
    rw [List.cons_append, List.map_cons, List.map_append]
    exact .group hk hi hl
  case last hi                  => exact .last hi
  case more hk _ hi hi'         =>
    rw [List.map_append, List.map_cons]
    exact .more hi hk hi'
  case alone hi                 => exact .alone hi
  case join c ts us _ hl hi     =>
    have hj := Derives.join hi (Tree.length_allMoved p us ▸ hl)
    cases c <;> exact hj

-- What is derived within a limit is derived within any greater one.
theorem Derives.mono (h : Derives n x ts us) (hm : n ≤ m) : Derives m x ts us := by
  induction h generalizing m
  case name hk             => exact .name hk
  case comparison hk ho hl => exact .comparison hk ho hl
  case not hk _ hi         =>
    obtain ⟨m, rfl⟩ := Nat.exists_eq_succ_of_ne_zero (Nat.ne_zero_of_lt hm)
    exact .not hk (hi (Nat.le_of_succ_le_succ hm))
  case group hk _ hl hi    =>
    obtain ⟨m, rfl⟩ := Nat.exists_eq_succ_of_ne_zero (Nat.ne_zero_of_lt hm)
    exact .group hk (hi (Nat.le_of_succ_le_succ hm)) hl
  case last hi             => exact .last (hi hm)
  case more hk _ hi hi'    => exact .more (hi hm) hk (hi' hm)
  case alone hi            => exact .alone (hi hm)
  case join hl hi          => exact .join (hi hm) hl

-- Within whatever limit, an expression has no more than one tree.
theorem Derives.unique {t u : Tree} (ht : Derives n .expression ts [t])
    (hu : Derives n .expression ts [u]) : t = u := by
  have hc : Tree.Closes .expression [] := nofun
  have ⟨_, ht, hr⟩ := Tree.reads_of_derives 0 ht hc
  have ⟨_, hu, hr'⟩ := Tree.reads_of_derives 0 hu hc
  cases ht
  cases hu
  cases hr.symm.trans hr'
  rfl

namespace Condition

theorem ofComparison_moved {name : String} {o : Operator} {v : Literal} {p q : Nat} {c : Condition}
    (h : ofComparison name o v p = .ok c) : ofComparison name o v q = .ok c :=
  ofComparison_eq_ok_iff.mpr (ofComparison_eq_ok_iff.mp h)

mutual

-- The condition of a tree does not depend on where the tree stands.
theorem ofTree_moved (n : Nat) (t : Tree) {c : Condition} (h : ofTree t = .ok c) :
    ofTree (moved n t) = .ok c := by
  match t with
  | .bare name position =>
    rw [moved]
    unfold ofTree at h ⊢
    cases ha : Attribute.ofName? name <;> rw [ha] at h
    case none   => cases h
    case some a => cases a <;> first | exact h | cases h
  | .comparison .. => exact ofComparison_moved h
  | .not t =>
    have ⟨c', ht, he⟩ := bind_eq_ok_iff.mp h
    exact bind_eq_ok_iff.mpr ⟨c', ofTree_moved n t ht, he⟩
  | .and ts =>
    have ⟨cs, ht, he⟩ := bind_eq_ok_iff.mp h
    exact bind_eq_ok_iff.mpr ⟨cs, ofTrees_moved n ts ht, he⟩
  | .or ts =>
    have ⟨cs, ht, he⟩ := bind_eq_ok_iff.mp h
    exact bind_eq_ok_iff.mpr ⟨cs, ofTrees_moved n ts ht, he⟩
  | .foreign => cases h

theorem ofTrees_moved (n : Nat) (ts : List Tree) {cs : List Condition} (h : ofTrees ts = .ok cs) :
    ofTrees (allMoved n ts) = .ok cs := by
  match ts with
  | [] => exact h
  | t :: ts =>
    have ⟨c, ht, hc⟩ := bind_eq_ok_iff.mp h
    have ⟨cs, hts, hc⟩ := bind_eq_ok_iff.mp hc
    exact bind_eq_ok_iff.mpr
      ⟨c, ofTree_moved n t ht, bind_eq_ok_iff.mpr ⟨cs, ofTrees_moved n ts hts, hc⟩⟩

end

end Condition

-- Criteria between parentheses behind the word not.
def complement (text : String) : String := "not (" ++ text ++ ")"

theorem tokens_complement {text : String} {ts : List Token} (h : tokens text = .ok ts) :
    tokens (complement text)
      = .ok (⟨.not, 0, 3⟩ :: ⟨.openParenthesis, 4, 1⟩ :: ts.map (·.moved 5)
          ++ [⟨.closeParenthesis, 5 + text.length, 1⟩]) := by
  have hs : Token.scan 0 5 (text.toList ++ [')'])
      = .ok (ts.map (·.moved 5) ++ [⟨.closeParenthesis, 5 + text.length, 1⟩]) :=
    Token.scan_append (Nat.zero_le _) (Token.scan_moved 5 h)
  have hp : Token.start '(' (text.toList ++ [')']) = .lexeme .openParenthesis 0 := rfl
  show Token.scan 0 0 (complement text).toList = _
  rw [complement, String.toList_append, String.toList_append, List.append_assoc]
  refine scan_not (p := 0) (l := '(' :: (text.toList ++ [')'])) ?_
  rw [Token.scan, hp]
  exact bind_eq_ok_iff.mpr ⟨_, hs, rfl⟩

theorem derives_complement {t : Tree} (position : Nat) (h : Derives n .expression ts [t]) :
    Derives (n + 2) .expression (⟨.not, 0, 3⟩ :: (⟨.openParenthesis, 4, 1⟩ :: ts.map (·.moved 5)
      ++ [⟨.closeParenthesis, position, 1⟩])) [.not (moved 5 t)] :=
  (Derives.not rfl (.group rfl (h.moved 5) rfl)).expression

-- If the complement of criteria is accepted as well, it is their negation.
theorem compile_complement {text : String} {c d : Condition} (hc : compile text = .ok c)
    (hd : compile (complement text) = .ok d) : d = .not c := by
  obtain ⟨t, ht, hc⟩ := bind_eq_ok_iff.mp hc
  obtain ⟨ts, hts, ht⟩ := bind_eq_ok_iff.mp ht
  obtain ⟨u, hu, hd⟩ := bind_eq_ok_iff.mp hd
  obtain ⟨us, hus, hu⟩ := bind_eq_ok_iff.mp hu
  cases (tokens_complement hts).symm.trans hus
  have ht := Tree.derives_of_ofTokens ht
  have hu := Tree.derives_of_ofTokens hu
  -- Two more may have to be nested than is allowed, which makes no difference for the tree.
  cases Derives.unique (derives_complement _ ht) (hu.mono (by decide))
  obtain ⟨c', hc', he⟩ := bind_eq_ok_iff.mp hd
  cases he
  cases hc'.symm.trans (Condition.ofTree_moved 5 t hc)
  rfl

-- The word and the parentheses take two of the levels that may be nested.
theorem compile_complement_of_derives {text : String} {t : Tree} {c : Condition}
    (hs : tokens text = .ok ts) (hd : Derives 98 .expression ts [t]) (hc : Condition.ofTree t = .ok c) :
    compile (complement text) = .ok (.not c) := by
  have hn : Condition.ofTree (.not (moved 5 t)) = .ok (.not c) :=
    bind_eq_ok_iff.mpr ⟨c, Condition.ofTree_moved 5 t hc, rfl⟩
  exact compile_of_derives (tokens_complement hs) (derives_complement _ hd) hn

theorem compile_complement_negated {n : Nat} (h : n ≤ 98) :
    compile (complement (negated n)) = .ok (.not (Condition.not^[n] .isExplicit)) := by
  have ⟨ts, hs, hd⟩ := derives_negated n 0
  have ⟨t, ht, hc⟩ := hd 98 h
  exact compile_complement_of_derives hs ht.expression hc

end LabelPlaylists.Criteria
