import LabelPlaylists.Criteria.Tree
import LabelPlaylists.Proofs.Result

namespace LabelPlaylists.Criteria

-- The literals that tokens stand for.
inductive Denotes : Lexeme → Literal → Prop
  | string : Denotes (.string s) (.text s)
  | number : digits.length ≤ 4300 → Denotes (.number digits) (.number (Text.digitsValue digits.toList))
  | true   : Denotes .true (.flag Bool.true)
  | false  : Denotes .false (.flag Bool.false)

inductive Connective
  | and
  | or

namespace Connective

def lexeme : Connective → Lexeme
  | and => .and
  | or  => .or

def node : Connective → List Tree → Tree
  | and => .and
  | or  => .or

end Connective

-- The symbols of the grammar. Between the operands of a connective stands the connective itself, and
-- joined together they are one tree.
inductive Symbol
  | negation
  | operands (c : Connective)
  | joined (c : Connective)

-- The connective and binds closer than the connective or.
def Connective.operand : Connective → Symbol
  | and => .negation
  | or  => .joined and

def Symbol.expression : Symbol := .joined .or

-- The trees that tokens derive from a symbol:
--
--    expression  := conjunction ("or" conjunction)*
--    conjunction := negation ("and" negation)*
--    negation    := "not" negation | "(" expression ")" | name operator literal | name
--
-- At most as many parentheses and words not as given stand around any token.
inductive Derives : Nat → Symbol → List Token → List Tree → Prop
  | name {n k s} :
    k.lexeme = .word s → Derives n .negation [k] [.bare (s.map Char.toLower) k.position]
  | comparison {n k o l s op v} :
    k.lexeme = .word s → o.lexeme = .operator op → Denotes l.lexeme v →
    Derives n .negation [k, o, l] [.comparison (s.map Char.toLower) op v k.position]
  | not {n k ts t} :
    k.lexeme = .not → Derives n .negation ts [t] → Derives (n + 1) .negation (k :: ts) [.not t]
  | group {n k l ts t} :
    k.lexeme = .openParenthesis → Derives n .expression ts [t] → l.lexeme = .closeParenthesis →
    Derives (n + 1) .negation (k :: ts ++ [l]) [t]
  | last {n c ts t} : Derives n c.operand ts [t] → Derives n (.operands c) ts [t]
  | more {n c k ts rest t us} :
    Derives n c.operand ts [t] → k.lexeme = c.lexeme → Derives n (.operands c) rest us →
    Derives n (.operands c) (ts ++ k :: rest) (t :: us)
  | alone {n c ts t} : Derives n (.operands c) ts [t] → Derives n (.joined c) ts [t]
  | join {n c ts us} :
    Derives n (.operands c) ts us → 2 ≤ us.length → Derives n (.joined c) ts [c.node us]

namespace Tree

-- What a reader of tokens makes of their front is derived from a symbol.
def Sound (n : Nat) (x : Symbol) (read : List Token → Except Error (Tree × List Token)) : Prop :=
  ∀ {ts t rest}, read ts = .ok (t, rest) → ∃ used, ts = used ++ rest ∧ Derives n x used [t]

-- The operands of a connective, joined.
def joined (c : Connective) (operand : List Token → Except Error (Tree × List Token)) (ts : List Token) :
    Except Error (Tree × List Token) := do
  let (found, rest) ← operands c.lexeme operand (ts.length + 1) ts
  .ok (join c.node found, rest)

theorem expression_eq (negation : List Token → Except Error (Tree × List Token)) :
    expression negation = joined .or (joined .and negation) :=
  rfl

theorem operands_sound {n m : Nat} {c : Connective}
    {read : List Token → Except Error (Tree × List Token)} (hr : Sound n c.operand read)
    {ts rest : List Token} {us : List Tree} (hm : ts.length < m)
    (h : operands c.lexeme read m ts = .ok (us, rest)) :
    ∃ used, ts = used ++ rest ∧ Derives n (.operands c) used us := by
  induction m generalizing ts us
  case zero => cases hm
  case succ m hi =>
    simp only [operands, bind_eq_ok_iff] at h
    have ⟨⟨t, behind⟩, ht, h⟩ := h
    have ⟨used, hu, hd⟩ := hr ht
    cases behind <;> dsimp only at h
    case nil =>
      cases h
      exact ⟨used, hu, .last hd⟩
    case cons k more =>
      split at h
      case isFalse =>
        cases h
        exact ⟨used, hu, .last hd⟩
      case isTrue hk =>
        have ⟨⟨others, behind⟩, ho, h⟩ := bind_eq_ok_iff.mp h
        cases h
        have hl : more.length < m := by
          have := congrArg List.length hu
          rw [List.length_append, List.length_cons] at this
          omega
        have ⟨used', hu', hd'⟩ := hi hl ho
        exact ⟨used ++ k :: used', by rw [hu, hu']; simp, .more hd hk hd'⟩

theorem join_derives {n : Nat} {c : Connective} {ts : List Token} {us : List Tree}
    (h : Derives n (.operands c) ts us) : Derives n (.joined c) ts [join c.node us] := by
  match us with
  | [] => cases h
  | [t] => exact .alone h
  | t :: u :: us => exact .join h (by simp)

theorem joined_sound {n : Nat} {c : Connective}
    {read : List Token → Except Error (Tree × List Token)} (hr : Sound n c.operand read) :
    Sound n (.joined c) (joined c read) := by
  intro ts t rest h
  have ⟨⟨us, _⟩, hu, h⟩ := bind_eq_ok_iff.mp h
  cases h
  have ⟨used, he, hd⟩ := operands_sound hr (Nat.lt_succ_self _) hu
  exact ⟨used, he, join_derives hd⟩

theorem denotes_of_literal {k : Token} {v : Literal} (h : literal k = .ok v) : Denotes k.lexeme v := by
  unfold literal at h
  split at h
  case h_1 he => cases h; rw [he]; exact .string
  case h_2 he =>
    split at h <;> cases h
    case isFalse hl => rw [he]; exact .number (Nat.le_of_not_lt hl)
  case h_3 he => cases h; rw [he]; exact .true
  case h_4 he => cases h; rw [he]; exact .false
  case h_5 => cases h

theorem leaf_sound {n stop : Nat} {s : String} {k : Token} {ts rest : List Token} {t : Tree}
    (hk : k.lexeme = .word s) (h : leaf stop s k.position ts = .ok (t, rest)) :
    ∃ used, k :: ts = used ++ rest ∧ Derives n .negation used [t] := by
  unfold leaf at h
  split at h
  case h_1 l rest =>
    have ⟨v, hv, h⟩ := bind_eq_ok_iff.mp h
    cases h
    exact ⟨[k, _, l], rfl, .comparison hk rfl (denotes_of_literal hv)⟩
  case h_2 => cases h
  case h_3 =>
    cases h
    exact ⟨[k], rfl, .name hk⟩

theorem negation_sound (stop n : Nat) : Sound n .negation (negation stop n) := by
  induction n
  case zero =>
    intro ts t rest h
    unfold negation at h
    split at h <;> try cases h
    case h_4 => exact leaf_sound rfl h
  case succ n hi =>
    intro ts t rest h
    unfold negation at h
    split at h
    case h_1 => cases h
    case h_2 more =>
      have ⟨⟨u, _⟩, hu, h⟩ := bind_eq_ok_iff.mp h
      cases h
      have ⟨used, he, hd⟩ := hi hu
      exact ⟨_ :: used, by rw [he]; rfl, .not rfl hd⟩
    case h_3 more =>
      have ⟨⟨u, behind⟩, hu, h⟩ := bind_eq_ok_iff.mp h
      rw [expression_eq] at hu
      have ⟨used, he, hd⟩ := joined_sound (c := .or) (joined_sound (c := .and) hi) hu
      dsimp only at h
      split at h <;> cases h
      rename_i k _ _ _ _ _
      exact ⟨_, by rw [he, ← List.cons_append, List.append_cons], .group rfl hd rfl⟩
    case h_4 => exact leaf_sound rfl h
    case h_5 => cases h

-- The lexemes by which a tree of a symbol may go on.
inductive Extends : Symbol → Lexeme → Prop
  | operator : Extends x (.operator o)
  | operands : Extends (.operands c) c.lexeme
  | joined   : Extends (.joined c) c.lexeme
  | operand  : Extends c.operand l → Extends (.operands c) l
  | chain    : Extends (.operands c) l → Extends (.joined c) l

-- The tokens that follow do not belong to a tree of a symbol.
def Closes (x : Symbol) (rest : List Token) : Prop :=
  ∀ k ∈ rest.head?, ¬Extends x k.lexeme

-- The reader of the operands of a connective.
def reader (stop n : Nat) : Connective → List Token → Except Error (Tree × List Token)
  | .and => negation stop n
  | .or  => joined .and (negation stop n)

-- Tokens are read as the trees of a symbol, up to the given rest.
def Reads (stop n : Nat) : Symbol → List Token → List Tree → List Token → Prop
  | .negation, ts, us, rest   => ∃ t, us = [t] ∧ negation stop n ts = .ok (t, rest)
  | .operands c, ts, us, rest =>
    ∀ m > ts.length, operands c.lexeme (reader stop n c) m ts = .ok (us, rest)
  | .joined c, ts, us, rest   => ∃ t, us = [t] ∧ joined c (reader stop n c) ts = .ok (t, rest)

variable {stop n : Nat} {ts rest : List Token} {us : List Tree} {t : Tree}

theorem reads_operand_iff {c : Connective} :
    Reads stop n c.operand ts [t] rest ↔ reader stop n c ts = .ok (t, rest) := by
  cases c <;> simp [Connective.operand, Reads, reader]

theorem literal_of_denotes {k : Token} {v : Literal} (h : Denotes k.lexeme v) : literal k = .ok v := by
  unfold literal
  generalize k.lexeme = l at h
  cases h <;> dsimp only
  case number hl => exact if_neg (Nat.not_lt.mpr hl)

theorem leaf_bare {s : String} {p : Nat} (hc : Closes .negation rest) :
    leaf stop s p rest = .ok (.bare (s.map Char.toLower) p, rest) := by
  unfold leaf
  split
  case h_1 => exact (hc _ rfl .operator).elim
  case h_2 => exact (hc _ rfl .operator).elim
  case h_3 => rfl

theorem Closes.operand {c : Connective} (h : Closes (.operands c) rest) : Closes c.operand rest :=
  fun k hk he => h k hk (.operand he)

theorem Closes.chain {c : Connective} (h : Closes (.joined c) rest) : Closes (.operands c) rest :=
  fun k hk he => h k hk (.chain he)

-- A connective ends its own operands.
theorem closes_connective {c : Connective} {k : Token} (hk : k.lexeme = c.lexeme) :
    Closes c.operand (k :: rest) := by
  rintro _ ⟨⟩ he
  rw [hk] at he
  cases c
  case and => cases he
  case or  => cases he; rename_i he; cases he; rename_i he; cases he

theorem closes_parenthesis {x : Symbol} {k : Token} (hk : k.lexeme = .closeParenthesis) :
    Closes x (k :: rest) := by
  rintro _ ⟨⟩ he
  rw [hk] at he
  generalize hl : Lexeme.closeParenthesis = l at he
  induction he
  case operator => cases hl
  case operands c => cases c <;> cases hl
  case joined c => cases c <;> cases hl
  case operand hi => exact hi hl
  case chain hi => exact hi hl

-- Every derivation is found, whatever follows, as long as it does not belong to the tree.
theorem reads_of_derives (stop : Nat) {x : Symbol} (h : Derives n x ts us) (hc : Closes x rest) :
    Reads stop n x (ts ++ rest) us rest := by
  induction h generalizing rest
  case name n k s hk =>
    obtain ⟨_, position, width⟩ := k
    cases hk
    exact ⟨_, rfl, by rw [List.singleton_append, negation]; exact leaf_bare hc⟩
  case comparison n k o l s op v hk ho hl =>
    obtain ⟨_, position, width⟩ := k
    obtain ⟨_, _, _⟩ := o
    cases hk
    cases ho
    refine ⟨_, rfl, ?_⟩
    show negation stop n (_ :: _ :: l :: rest) = _
    rw [negation, leaf, literal_of_denotes hl]
    rfl
  case not n k ts t hk _ hi =>
    obtain ⟨_, position, width⟩ := k
    cases hk
    have ⟨_, he, hr⟩ := hi hc
    cases he
    refine ⟨_, rfl, ?_⟩
    rw [List.cons_append, negation, hr]
    rfl
  case group n k l ts t hk _ hl hi =>
    obtain ⟨_, position, width⟩ := k
    have ⟨_, he, hr⟩ := @hi (l :: rest) (closes_parenthesis hl)
    obtain ⟨_, _, _⟩ := l
    cases hk
    cases hl
    cases he
    have hr : expression (negation stop n) (ts ++ _ :: rest) = .ok (t, _ :: rest) := hr
    refine ⟨_, rfl, ?_⟩
    rw [List.append_assoc, List.cons_append, negation]
    dsimp only [List.singleton_append]
    rw [hr]
    rfl
  case last n c ts t _ hi =>
    intro m hm
    have hr := reads_operand_iff.mp (hi hc.operand)
    obtain ⟨m, rfl⟩ := Nat.exists_eq_succ_of_ne_zero (Nat.ne_zero_of_lt hm)
    rw [operands, hr]
    cases rest
    case nil       => rfl
    case cons k ks =>
      exact if_neg fun (hk : k.lexeme = c.lexeme) => hc k rfl (by rw [hk]; exact .operands)
  case more n c k ts more t us _ hk _ hi hi' =>
    intro m hm
    have hr := reads_operand_iff.mp (@hi (k :: (more ++ rest)) (closes_connective hk))
    obtain ⟨m, rfl⟩ := Nat.exists_eq_succ_of_ne_zero (Nat.ne_zero_of_lt hm)
    simp only [List.append_assoc, List.cons_append, List.length_append, List.length_cons] at hm ⊢
    have hm' : m > (more ++ rest).length := by rw [List.length_append]; omega
    rw [operands, hr]
    refine (if_pos hk).trans ?_
    rw [hi' hc m hm']
    rfl
  case alone n c ts t _ hi =>
    refine ⟨t, rfl, ?_⟩
    rw [joined, hi hc.chain _ (Nat.lt_succ_self _)]
    rfl
  case join n c ts us _ hl hi =>
    have hj : join c.node us = c.node us := by
      match us with
      | _ :: _ :: _ => rfl
    refine ⟨_, rfl, ?_⟩
    rw [joined, hi hc.chain _ (Nat.lt_succ_self _)]
    show Except.ok (join c.node us, rest) = _
    rw [hj]

theorem derives_ne_nil {x : Symbol} (h : Derives n x ts us) : ts ≠ [] := by
  induction h <;> simp_all

theorem derives_of_ofTokens {stop : Nat} {t : Tree} (h : ofTokens stop ts = .ok t) :
    Derives 100 .expression ts [t] := by
  unfold ofTokens at h
  split at h
  case isTrue  => cases h
  case isFalse =>
    have ⟨⟨u, rest⟩, hu, h⟩ := bind_eq_ok_iff.mp h
    rw [expression_eq] at hu
    have ⟨used, he, hd⟩ := joined_sound (c := .or)
      (joined_sound (c := .and) (negation_sound stop maxNesting)) hu
    cases rest <;> cases h
    rw [he, List.append_nil]
    exact hd

theorem ofTokens_of_derives (stop : Nat) {t : Tree} (h : Derives 100 .expression ts [t]) :
    ofTokens stop ts = .ok t := by
  have hc : Closes .expression [] := nofun
  have ⟨_, he, hr⟩ := reads_of_derives stop h hc
  cases he
  have hr : expression (negation stop maxNesting) ts = .ok (t, []) := List.append_nil ts ▸ hr
  unfold ofTokens
  rw [if_neg (by simpa using derives_ne_nil h), hr]
  rfl

-- Exactly the token lists of the grammar are read, each as the tree that is derived, and none has more
-- than one tree.
theorem ofTokens_eq_ok_iff (stop : Nat) (ts : List Token) :
    (∀ t, ofTokens stop ts = .ok t ↔ Derives 100 .expression ts [t]) ∧
    ∀ t u, Derives 100 .expression ts [t] → Derives 100 .expression ts [u] → t = u := by
  refine ⟨fun t => ⟨derives_of_ofTokens, ofTokens_of_derives stop⟩, fun t u ht hu => ?_⟩
  have ht := ofTokens_of_derives stop ht
  have hu := ofTokens_of_derives stop hu
  exact Except.ok.inj (ht.symm.trans hu)

end Tree

end LabelPlaylists.Criteria
