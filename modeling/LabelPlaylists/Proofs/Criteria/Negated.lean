import LabelPlaylists.Criteria.Sql
import LabelPlaylists.Proofs.Criteria.Grammar
import Mathlib.Logic.Function.Iterate

namespace LabelPlaylists.Criteria

-- A flag behind as many negations as given.
def negated : Nat → String
  | 0     => "explicit"
  | n + 1 => "not " ++ negated n

theorem scan_not {p : Nat} {l : List Char} {ts : List Token}
    (h : Token.scan 0 (p + 4) l = .ok ts) :
    Token.scan 0 p ("not ".toList ++ l) = .ok (⟨.not, p, 3⟩ :: ts) := by
  have hw : Lexeme.ofWord (String.ofList ['n', 'o', 't']) = .not := by decide +kernel
  have hn : Token.start 'n' ('o' :: 't' :: ' ' :: l) = .lexeme .not 2 :=
    congrArg (Token.Start.lexeme · 2) hw
  have hb : Token.start ' ' l = .blank := rfl
  show Token.scan 0 p ('n' :: 'o' :: 't' :: ' ' :: l) = _
  rw [Token.scan, hn]
  show (Token.scan 0 (p + 3) (' ' :: l) >>= fun ts => .ok (⟨.not, p, 3⟩ :: ts)) = _
  rw [Token.scan, hb]
  show (Token.scan 0 (p + 4) l >>= fun ts => .ok (⟨.not, p, 3⟩ :: ts)) = _
  rw [h]
  rfl

theorem scan_explicit (p : Nat) :
    Token.scan 0 p "explicit".toList = .ok [⟨.word "explicit", p, 8⟩] := by
  have hs : Token.start 'e' "xplicit".toList = .lexeme (.word "explicit") 7 := by
    decide +kernel
  show Token.scan 0 p ('e' :: "xplicit".toList) = _
  rw [Token.scan, hs]
  rfl

-- Negations are read one by one, each within the limit of the one before.
theorem derives_negated (n p : Nat) :
    ∃ ts, Token.scan 0 p (negated n).toList = .ok ts ∧
      ∀ depth ≥ n, ∃ t, Derives depth .negation ts [t] ∧
        Condition.ofTree t = .ok (Condition.not^[n] .isExplicit) := by
  induction n generalizing p
  case zero =>
    refine ⟨_, scan_explicit p, fun depth _ => ⟨_, .name rfl, ?_⟩⟩
    have hl : "explicit".map Char.toLower = "explicit" := by decide +kernel
    rw [hl]
    rfl
  case succ n hi =>
    have ⟨ts, hs, h⟩ := hi (p + 4)
    refine ⟨⟨.not, p, 3⟩ :: ts, ?_, fun depth hd => ?_⟩
    · rw [negated, String.toList_append]
      exact scan_not hs
    · obtain ⟨depth, rfl⟩ := Nat.exists_eq_succ_of_ne_zero (Nat.ne_zero_of_lt hd)
      have ⟨t, ht, hc⟩ := h depth (Nat.le_of_succ_le_succ hd)
      refine ⟨.not t, .not rfl ht, ?_⟩
      rw [Condition.ofTree, hc, Function.iterate_succ_apply']
      rfl

theorem Derives.expression {depth : Nat} {ts : List Token} {t : Tree} (h : Derives depth .negation ts [t]) :
    Derives depth .expression ts [t] :=
  .alone (.last (.alone (.last h)))

theorem compile_of_derives {text : String} {ts : List Token} {t : Tree} {c : Condition}
    (hs : tokens text = .ok ts) (hd : Derives 100 .expression ts [t]) (hc : Condition.ofTree t = .ok c) :
    compile text = .ok c := by
  have ho := Tree.ofTokens_of_derives text.length hd
  exact bind_eq_ok_iff.mpr ⟨t, bind_eq_ok_iff.mpr ⟨ts, hs, ho⟩, hc⟩

theorem compile_negated {n : Nat} (h : n ≤ 100) :
    compile (negated n) = .ok (Condition.not^[n] .isExplicit) := by
  have ⟨ts, hs, hd⟩ := derives_negated n 0
  have ⟨t, ht, hc⟩ := hd 100 h
  exact compile_of_derives hs ht.expression hc

-- Every negation leaves two more symbols waiting.
theorem pending_negated (n : Nat) : (Condition.not^[n] .isExplicit).test.pending = 2 * n + 3 := by
  induction n
  case zero => rfl
  case succ n hi =>
    rw [Function.iterate_succ_apply', Condition.test, Sql.Test.pending, hi]
    omega

end LabelPlaylists.Criteria
