import LabelPlaylists.Proofs.Criteria.Negated

namespace LabelPlaylists.Criteria

open Sql (Test)

namespace Condition

mutual

-- How often the words and, or and not stand in a condition.
def words : Condition → Nat
  | .isExplicit | .explicit .. | .text .. | .day .. | .year .. => 0
  | .not c  => words c + 1
  | .and cs => wordsOf cs - 1
  | .or cs  => wordsOf cs - 1

-- Operands with a word behind each of them, the last one included.
def wordsOf : List Condition → Nat
  | []        => 0
  | c :: rest => words c + 1 + wordsOf rest

end

mutual

-- How deep the words and, or and not are nested.
def depth : Condition → Nat
  | .isExplicit | .explicit .. | .text .. | .day .. | .year .. => 0
  | .not c  => depth c + 1
  | .and cs => depthOf cs + 1
  | .or cs  => depthOf cs + 1

def depthOf : List Condition → Nat
  | []        => 0
  | c :: rest => max (depth c) (depthOf rest)

end

-- The tests of texts are the highest, and those with a subquery leave the most symbols waiting.
theorem textTest_bounds (a : TextAttribute) (r : TextRelation) :
    (textTest a r).height ≤ 7 ∧ (textTest a r).subqueryHeight ≤ 7 ∧ (textTest a r).pending ≤ 19 := by
  cases a <;> cases r <;> decide

mutual

-- Every word makes the test at most one higher.
theorem height_test (c : Condition) : c.test.height ≤ 7 + c.words := by
  match c with
  | .isExplicit | .explicit .. | .day .. | .year .. => exact Nat.le_of_ble_eq_true rfl
  | .text a r _ => exact (textTest_bounds a r).left
  | .not c =>
    have := height_test c
    rw [test, Test.height, words]
    omega
  | .and cs => exact height_operands cs
  | .or cs  => exact height_operands cs

theorem height_operands (cs : List Condition) : Test.heightOfChain 0 (tests cs) ≤ 7 + (wordsOf cs - 1) := by
  match cs with
  | []      => exact Nat.zero_le _
  | c :: cs =>
    have := height_test c
    have := height_chain cs c.test.height
    rw [tests, Test.heightOfChain, if_pos rfl, wordsOf]
    omega

theorem height_chain (cs : List Condition) (before : Nat) :
    Test.heightOfChain before (tests cs) ≤ max before 7 + wordsOf cs := by
  match cs with
  | []      => exact Nat.le_max_left _ _
  | c :: cs =>
    have := height_test c
    have hb : (if before = 0 then c.test.height else max before c.test.height + 1)
        ≤ max before 7 + c.words + 1 := by
      split <;> omega
    have := height_chain cs (if before = 0 then c.test.height else max before c.test.height + 1)
    rw [tests, Test.heightOfChain, wordsOf]
    omega

end

mutual

-- Subqueries stand in the tests of texts only.
theorem subqueryHeight_test (c : Condition) : c.test.subqueryHeight ≤ 7 := by
  match c with
  | .isExplicit | .explicit .. | .day .. | .year .. => exact Nat.zero_le _
  | .text a r _ => exact (textTest_bounds a r).right.left
  | .not c  => exact subqueryHeight_test c
  | .and cs => exact subqueryHeights_tests cs
  | .or cs  => exact subqueryHeights_tests cs

theorem subqueryHeights_tests (cs : List Condition) : Test.subqueryHeights (tests cs) ≤ 7 := by
  match cs with
  | []      => exact Nat.zero_le _
  | c :: cs => exact Nat.max_le.mpr ⟨subqueryHeight_test c, subqueryHeights_tests cs⟩

end

mutual

-- Every level leaves at most three more symbols waiting.
theorem pending_test (c : Condition) : c.test.pending ≤ 19 + 3 * c.depth := by
  match c with
  | .isExplicit | .explicit .. | .day .. | .year .. => exact Nat.le_of_ble_eq_true rfl
  | .text a r _ => exact (textTest_bounds a r).right.right
  | .not c =>
    have := pending_test c
    rw [test, Test.pending, depth]
    omega
  | .and cs => exact pending_tests cs 1 (by decide)
  | .or cs  => exact pending_tests cs 1 (by decide)

theorem pending_tests (cs : List Condition) (before : Nat) (h : before ≤ 3) :
    Test.pendingOfChain before (tests cs) ≤ 19 + 3 * (depthOf cs + 1) := by
  match cs with
  | []      => exact Nat.zero_le _
  | c :: cs =>
    have := pending_test c
    have := pending_tests cs 3 (Nat.le_refl 3)
    rw [tests, Test.pendingOfChain, depthOf]
    omega

end

theorem isLow_of_words {c : Condition} (h : c.words ≤ 984) : c.test.IsLow := by
  have := height_test c
  have := subqueryHeight_test c
  show c.test.height + 2 + c.test.subqueryHeight ≤ 1000
  omega

theorem isReadable_of_depth {c : Condition} (h : c.depth ≤ 24) : c.test.IsReadable := by
  have := pending_test c
  show 8 + c.test.pending ≤ 99
  omega

end Condition

-- Criteria that the store can run.
def IsUsable (text : String) : Prop :=
  ∃ c, compile text = .ok c ∧ c.test.IsReadable ∧ c.test.IsLow

theorem isUsable_iff {text : String} {c : Condition} (h : compile text = .ok c) :
    IsUsable text ↔ c.test.IsReadable ∧ c.test.IsLow := by
  refine ⟨fun ⟨d, hd, hu⟩ => ?_, fun hu => ⟨c, h, hu⟩⟩
  cases hd.symm.trans h
  exact hu

theorem exists_compile_of_isValid {text : String} (h : isValid text) : ∃ c, compile text = .ok c := by
  unfold isValid problem? at h
  split at h
  case h_1 c hc => exact ⟨c, hc⟩
  case h_2      => cases h

-- A flag with as many alternatives as given, each of them the same flag.
def alternatives : Nat → String
  | 0     => "explicit"
  | n + 1 => "explicit or " ++ alternatives n

def flags (n : Nat) : Condition := .or (List.replicate (n + 1) .isExplicit)

theorem scan_alternative {p : Nat} {l : List Char} {ts : List Token}
    (h : Token.scan 0 (p + 12) l = .ok ts) :
    Token.scan 0 p ("explicit or ".toList ++ l)
      = .ok (⟨.word "explicit", p, 8⟩ :: ⟨.or, p + 9, 2⟩ :: ts) := by
  have hw : Lexeme.ofWord (String.ofList "explicit".toList) = .word "explicit" := by decide +kernel
  have ho : Lexeme.ofWord (String.ofList ['o', 'r']) = .or := by decide +kernel
  have he : Token.start 'e' ("xplicit or ".toList ++ l) = .lexeme (.word "explicit") 7 :=
    congrArg (Token.Start.lexeme · 7) hw
  have hr : Token.start 'o' ('r' :: ' ' :: l) = .lexeme .or 1 :=
    congrArg (Token.Start.lexeme · 1) ho
  have hb (l : List Char) : Token.start ' ' l = .blank := rfl
  show Token.scan 0 p ('e' :: ("xplicit or ".toList ++ l)) = _
  rw [Token.scan, he]
  show (Token.scan 0 (p + 8) (' ' :: 'o' :: 'r' :: ' ' :: l) >>= fun ts => .ok (_ :: ts)) = _
  rw [Token.scan, hb]
  show (Token.scan 0 (p + 9) ('o' :: 'r' :: ' ' :: l) >>= fun ts => .ok (_ :: ts)) = _
  rw [Token.scan, hr]
  show ((Token.scan 0 (p + 11) (' ' :: l) >>= fun ts => .ok (_ :: ts)) >>= fun ts => .ok (_ :: ts)) = _
  rw [Token.scan, hb]
  show ((Token.scan 0 (p + 12) l >>= fun ts => .ok (_ :: ts)) >>= fun ts => .ok (_ :: ts)) = _
  rw [h]
  rfl

theorem ofTree_flag (p : Nat) :
    Condition.ofTree (.bare ("explicit".map Char.toLower) p) = .ok .isExplicit := by
  have hl : "explicit".map Char.toLower = "explicit" := by decide +kernel
  rw [hl]
  rfl

-- Alternatives are read one by one, none deeper than the others.
theorem derives_alternatives (n p : Nat) :
    ∃ ts us, Token.scan 0 p (alternatives n).toList = .ok ts ∧ us.length = n + 1 ∧
      (∀ depth, Derives depth (.operands .or) ts us) ∧
      Condition.ofTrees us = .ok (List.replicate (n + 1) .isExplicit) := by
  induction n generalizing p
  case zero =>
    refine ⟨_, _, scan_explicit p, rfl, fun depth => .last (.alone (.last (.name rfl))), ?_⟩
    rw [Condition.ofTrees, ofTree_flag]
    rfl
  case succ n hi =>
    have ⟨ts, us, hs, hl, hd, hc⟩ := hi (p + 12)
    refine ⟨⟨.word "explicit", p, 8⟩ :: ⟨.or, p + 9, 2⟩ :: ts, _ :: us, ?_, congrArg (· + 1) hl,
      fun depth => .more (.alone (.last (.name rfl))) rfl (hd depth), ?_⟩
    · rw [alternatives, String.toList_append]
      exact scan_alternative hs
    · rw [Condition.ofTrees, ofTree_flag, hc]
      rfl

theorem compile_alternatives {n : Nat} (h : 1 ≤ n) : compile (alternatives n) = .ok (flags n) := by
  have ⟨ts, us, hs, hl, hd, hc⟩ := derives_alternatives n 0
  refine compile_of_derives hs (.join (hd 100) (by omega)) ?_
  show Condition.ofTree (.or us) = _
  rw [Condition.ofTree, hc]
  rfl

theorem heightOfChain_flags (n : Nat) {before : Nat} (h : 3 ≤ before) :
    Test.heightOfChain before (Condition.tests (List.replicate n .isExplicit)) = before + n := by
  induction n generalizing before
  case zero => rfl
  case succ n hi =>
    rw [List.replicate_succ, Condition.tests, Test.heightOfChain, if_neg (by omega)]
    show Test.heightOfChain (max before 3 + 1) _ = _
    rw [hi (by omega)]
    omega

theorem depth_flags (n : Nat) : (flags n).depth = 1 := by
  have h (n : Nat) : Condition.depthOf (List.replicate n .isExplicit) = 0 := by
    induction n
    case zero      => rfl
    case succ n hi => rw [List.replicate_succ, Condition.depthOf, hi]; rfl
  rw [flags, Condition.depth, h]

-- A chain of alternatives is as high as it is long.
theorem not_isLow_flags {n : Nat} (h : 996 ≤ n) : ¬(flags n).test.IsLow := by
  show ¬Test.heightOfChain 3 (Condition.tests (List.replicate n .isExplicit)) + 2 + _ ≤ 1000
  rw [heightOfChain_flags n (Nat.le_refl 3)]
  omega

end LabelPlaylists.Criteria
