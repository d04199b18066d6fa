import LabelPlaylists.Proofs.Criteria.Grammar

namespace LabelPlaylists.Criteria

-- Tokens that may go on to something derived from a symbol.
def Viable (n : Nat) (x : Symbol) (ts : List Token) : Prop :=
  ∃ more us, Derives n x (ts ++ more) us

-- The tokens of criteria, and those that may go on to be.
def Accepted (ts : List Token) : Prop := ∃ t, Derives 100 .expression ts [t]

def Acceptable (ts : List Token) : Prop := ∃ more, Accepted (ts ++ more)

variable {stop n : Nat} {x : Symbol} {c : Connective} {ts used more rest : List Token} {k l : Token}
  {t : Tree} {us : List Tree} {e : Error}

-- Only a chain of operands has more than one tree.
theorem Derives.joined_one (h : Derives n (.joined c) ts us) : ∃ t, us = [t] := by
  cases h <;> exact ⟨_, rfl⟩

theorem Derives.operand_one (h : Derives n c.operand ts us) : ∃ t, us = [t] := by
  cases c
  case and => cases h <;> exact ⟨_, rfl⟩
  case or  => exact h.joined_one

namespace Viable

-- Every beginning of what is derived is viable.
theorem of_derives (h : Derives n x (ts ++ more) us) : Viable n x ts := ⟨more, us, h⟩

theorem name : Viable n .negation [] :=
  of_derives (.name (k := ⟨.word "explicit", 0, 8⟩) rfl)

theorem operator (hk : k.lexeme = .word s) (hl : l.lexeme = .operator o) : Viable n .negation [k, l] :=
  ⟨[⟨.true, 0, 4⟩], _, .comparison hk hl .true⟩

theorem not (hk : k.lexeme = .not) (h : Viable n .negation ts) : Viable (n + 1) .negation (k :: ts) := by
  have ⟨_, us, h⟩ := h
  obtain ⟨_, rfl⟩ := h.operand_one (c := .and)
  exact of_derives (.not hk h)

theorem group (hk : k.lexeme = .openParenthesis) (h : Viable n .expression ts) :
    Viable (n + 1) .negation (k :: ts) := by
  have ⟨more, us, h⟩ := h
  obtain ⟨_, rfl⟩ := h.joined_one
  have hg := Derives.group (l := ⟨.closeParenthesis, 0, 1⟩) hk h rfl
  rw [List.cons_append, List.append_assoc] at hg
  exact of_derives hg

theorem first (h : Viable n c.operand ts) : Viable n (.operands c) ts := by
  have ⟨_, us, h⟩ := h
  obtain ⟨_, rfl⟩ := h.operand_one
  exact of_derives (.last h)

theorem next (hd : Derives n c.operand used [t]) (hk : k.lexeme = c.lexeme) (h : Viable n (.operands c) ts) :
    Viable n (.operands c) (used ++ k :: ts) := by
  have ⟨more, us, h⟩ := h
  have hm := Derives.more hd hk h
  rw [← List.cons_append, ← List.append_assoc] at hm
  exact of_derives hm

theorem joined (h : Viable n (.operands c) ts) : Viable n (.joined c) ts := by
  have ⟨_, us, h⟩ := h
  exact of_derives (Tree.join_derives h)

theorem expression (h : Viable n .negation ts) : Viable n .expression ts :=
  joined (first (c := .or) (joined (first (c := .and) h)))

theorem acceptable (h : Viable 100 .expression ts) : Acceptable ts := by
  have ⟨more, us, h⟩ := h
  obtain ⟨t, rfl⟩ := h.joined_one
  exact ⟨more, t, h⟩

end Viable

namespace Tree

-- Tokens cannot be read as a symbol.
def Fails (stop n : Nat) : Symbol → List Token → Error → Prop
  | .negation, ts, e   => negation stop n ts = .error e
  | .operands c, ts, e => ∀ m > ts.length, operands c.lexeme (reader stop n c) m ts = .error e
  | .joined c, ts, e   => joined c (reader stop n c) ts = .error e

theorem fails_operand_iff : Fails stop n c.operand ts e ↔ reader stop n c ts = .error e := by
  cases c <;> rfl

-- How reading a symbol ends:
-- 1. at the end of a tree, by no more than the next token
-- 2. with an error at the end of the text, if the tokens might have gone on
-- 3. with an error at the first token by which they might not, whatever comes behind it
inductive Ending (stop n : Nat) (x : Symbol) (ts : List Token) : Prop
  | read (used rest : List Token) (us : List Tree) :
    ts = used ++ rest → Derives n x used us →
    (∀ others, others.head? = rest.head? → Reads stop n x (used ++ others) us others) → Ending stop n x ts
  | ended (e : Error) : Fails stop n x ts e → e.position = stop → Viable n x ts → Ending stop n x ts
  | refused (before : List Token) (k : Token) (after : List Token) :
    ts = before ++ k :: after → Viable n x before →
    (∀ others, ∃ e, Fails stop n x (before ++ k :: others) e ∧ e.position = k.position) → Ending stop n x ts

theorem reads_last (h : Reads stop n c.operand ts [t] rest) (hc : ∀ k ∈ rest.head?, k.lexeme ≠ c.lexeme) :
    Reads stop n (.operands c) ts [t] rest := by
  intro m hm
  obtain ⟨m, rfl⟩ := Nat.exists_eq_succ_of_ne_zero (Nat.ne_zero_of_lt hm)
  rw [operands, reads_operand_iff.mp h]
  cases rest
  case nil       => rfl
  case cons k ks => exact if_neg (hc k rfl)

theorem reads_more (h : Reads stop n c.operand (used ++ k :: more) [t] (k :: more)) (hk : k.lexeme = c.lexeme)
    (hm : Reads stop n (.operands c) more us rest) :
    Reads stop n (.operands c) (used ++ k :: more) (t :: us) rest := by
  intro m hl
  obtain ⟨m, rfl⟩ := Nat.exists_eq_succ_of_ne_zero (Nat.ne_zero_of_lt hl)
  rw [List.length_append, List.length_cons] at hl
  rw [operands, reads_operand_iff.mp h]
  refine (if_pos hk).trans ?_
  rw [hm m (by omega)]
  rfl

theorem fails_first (h : Fails stop n c.operand ts e) : Fails stop n (.operands c) ts e := by
  intro m hm
  obtain ⟨m, rfl⟩ := Nat.exists_eq_succ_of_ne_zero (Nat.ne_zero_of_lt hm)
  rw [operands, fails_operand_iff.mp h]
  rfl

theorem fails_more (h : Reads stop n c.operand (used ++ k :: more) [t] (k :: more)) (hk : k.lexeme = c.lexeme)
    (hm : Fails stop n (.operands c) more e) : Fails stop n (.operands c) (used ++ k :: more) e := by
  intro m hl
  obtain ⟨m, rfl⟩ := Nat.exists_eq_succ_of_ne_zero (Nat.ne_zero_of_lt hl)
  rw [List.length_append, List.length_cons] at hl
  rw [operands, reads_operand_iff.mp h]
  refine (if_pos hk).trans ?_
  rw [hm m (by omega)]
  rfl

theorem fails_joined (h : Fails stop n (.operands c) ts e) : Fails stop n (.joined c) ts e := by
  show joined c (reader stop n c) ts = _
  rw [joined, h _ (Nat.lt_succ_self _)]
  rfl

theorem reads_joined (h : Reads stop n (.operands c) ts us rest) :
    Reads stop n (.joined c) ts [join c.node us] rest := by
  refine ⟨_, rfl, ?_⟩
  rw [joined, h _ (Nat.lt_succ_self _)]
  rfl

-- A chain of operands ends as its last operand does.
theorem Ending.operands (h : ∀ ts, Ending stop n c.operand ts) (ts : List Token) :
    Ending stop n (.operands c) ts := by
  induction hl : ts.length using Nat.strongRecOn generalizing ts
  case ind m hi =>
    cases h ts
    case ended e hf hp hv => exact .ended e (fails_first hf) hp hv.first
    case refused before k after he hv hf =>
      exact .refused before k after he hv.first fun others =>
        have ⟨e, hf, hp⟩ := hf others
        ⟨e, fails_first hf, hp⟩
    case read used rest us he hd hr =>
      obtain ⟨t, rfl⟩ := hd.operand_one
      by_cases hk : ∃ k more, rest = k :: more ∧ k.lexeme = c.lexeme
      case neg =>
        have hc : ∀ k ∈ rest.head?, k.lexeme ≠ c.lexeme := fun k hk' he => by
          have ⟨more, hm⟩ := List.head?_eq_some_iff.mp hk'
          exact hk ⟨k, more, hm, he⟩
        exact .read used rest [t] he (.last hd) fun others ho => reads_last (hr others ho) (ho ▸ hc)
      case pos =>
        obtain ⟨k, more, rfl, hk⟩ := hk
        have hm : more.length < m := by rw [← hl, he, List.length_append, List.length_cons]; omega
        cases hi _ hm more rfl
        case read used' rest' us he' hd' hr' =>
          refine .read (used ++ k :: used') rest' (t :: us) (by rw [he, he']; simp) (.more hd hk hd')
            fun others ho => ?_
          rw [List.append_assoc, List.cons_append]
          exact reads_more (hr _ rfl) hk (hr' others ho)
        case ended e hf hp hv =>
          exact .ended e (he ▸ fails_more (hr _ rfl) hk hf) hp (he ▸ hv.next hd hk)
        case refused before k' after he' hv hf =>
          refine .refused (used ++ k :: before) k' after (by rw [he, he']; simp) (hv.next hd hk) fun others => ?_
          have ⟨e, hf, hp⟩ := hf others
          rw [List.append_assoc, List.cons_append]
          exact ⟨e, fails_more (hr _ rfl) hk hf, hp⟩

theorem Ending.joined (h : Ending stop n (.operands c) ts) : Ending stop n (.joined c) ts := by
  cases h
  case read used rest us he hd hr =>
    exact .read used rest _ he (join_derives hd) fun others ho => reads_joined (hr others ho)
  case ended e hf hp hv => exact .ended e (fails_joined hf) hp hv.joined
  case refused before k after he hv hf =>
    exact .refused before k after he hv.joined fun others =>
      have ⟨e, hf, hp⟩ := hf others
      ⟨e, fails_joined hf, hp⟩

theorem Ending.expression (h : ∀ ts, Ending stop n .negation ts) (ts : List Token) :
    Ending stop n .expression ts :=
  .joined (.operands (c := .or) (fun ts => .joined (.operands (c := .and) h ts)) ts)

-- The errors of a literal are errors at its token.
theorem literal_error (h : literal k = .error e) : e.position = k.position := by
  unfold literal at h
  split at h <;> try cases h
  case h_2 => split at h <;> cases h; rfl
  case h_5 => rfl

theorem leaf_comparison {s : String} {p : Nat} (hk : k.lexeme = .operator o) :
    leaf stop s p (k :: l :: rest)
      = literal l >>= fun v => .ok (.comparison (s.map Char.toLower) o v p, rest) := by
  obtain ⟨_, _, _⟩ := k
  cases hk
  rfl

theorem leaf_end {s : String} {p : Nat} (hk : k.lexeme = .operator o) :
    leaf stop s p [k] = .error ⟨.unexpectedEnd, stop⟩ := by
  obtain ⟨_, _, _⟩ := k
  cases hk
  rfl

theorem leaf_name {s : String} {p : Nat} (hr : ∀ k ∈ rest.head?, ∀ o, k.lexeme ≠ .operator o) :
    leaf stop s p rest = .ok (.bare (s.map Char.toLower) p, rest) := by
  unfold leaf
  split
  case h_1 => exact (hr _ rfl _ rfl).elim
  case h_2 => exact (hr _ rfl _ rfl).elim
  case h_3 => rfl

theorem ending_leaf {s : String} (hk : k.lexeme = .word s)
    (hn : ∀ ts, negation stop n (k :: ts) = leaf stop s k.position ts) (ts : List Token) :
    Ending stop n .negation (k :: ts) := by
  by_cases ho : ∃ l ∈ ts.head?, ∃ o, l.lexeme = .operator o
  case neg =>
    have ho : ∀ l ∈ ts.head?, ∀ o, l.lexeme ≠ .operator o := fun l hl o he => ho ⟨l, hl, o, he⟩
    exact .read [k] ts _ rfl (.name hk) fun others hh => ⟨_, rfl, (hn _).trans (leaf_name (hh ▸ ho))⟩
  case pos =>
    obtain ⟨l, hl, o, ho⟩ := ho
    obtain ⟨ts, rfl⟩ := List.head?_eq_some_iff.mp hl
    cases ts
    case nil       => exact .ended _ ((hn _).trans (leaf_end ho)) rfl (.operator hk ho)
    case cons v ts =>
      cases hv : literal v
      case ok =>
        refine .read [k, l, v] ts _ rfl (.comparison hk ho (denotes_of_literal hv)) fun others _ => ⟨_, rfl, ?_⟩
        exact (hn _).trans ((leaf_comparison ho).trans (by rw [hv]; rfl))
      case error e =>
        refine .refused [k, l] v ts rfl (.operator hk ho) fun others => ⟨e, ?_, literal_error hv⟩
        exact (hn _).trans ((leaf_comparison ho).trans (by rw [hv]; rfl))

theorem reads_not (hk : k.lexeme = .not) (h : Reads stop n .negation ts [t] rest) :
    Reads stop (n + 1) .negation (k :: ts) [.not t] rest := by
  obtain ⟨_, _, _⟩ := k
  obtain ⟨_, he, h⟩ := h
  cases hk
  cases he
  exact ⟨_, rfl, bind_eq_ok_iff.mpr ⟨_, h, rfl⟩⟩

theorem fails_not (hk : k.lexeme = .not) (h : Fails stop n .negation ts e) :
    Fails stop (n + 1) .negation (k :: ts) e := by
  obtain ⟨_, _, _⟩ := k
  cases hk
  exact bind_eq_error_iff.mpr (.inl h)

theorem reads_group (hk : k.lexeme = .openParenthesis) (hl : l.lexeme = .closeParenthesis)
    (h : Reads stop n .expression ts [t] (l :: rest)) : Reads stop (n + 1) .negation (k :: ts) [t] rest := by
  obtain ⟨_, _, _⟩ := k
  obtain ⟨_, _, _⟩ := l
  obtain ⟨_, he, h⟩ := h
  cases hk
  cases hl
  cases he
  exact ⟨_, rfl, bind_eq_ok_iff.mpr ⟨_, h, rfl⟩⟩

theorem fails_group (hk : k.lexeme = .openParenthesis) (h : Fails stop n .expression ts e) :
    Fails stop (n + 1) .negation (k :: ts) e := by
  obtain ⟨_, _, _⟩ := k
  cases hk
  exact bind_eq_error_iff.mpr (.inl h)

-- An expression between parentheses that goes on with something else than the closing one.
theorem fails_unclosed (hk : k.lexeme = .openParenthesis) (h : Reads stop n .expression ts [t] rest)
    (hr : ∀ l ∈ rest.head?, l.lexeme ≠ .closeParenthesis) :
    Fails stop (n + 1) .negation (k :: ts) ⟨.expectedParenthesis, (rest.head?.map (·.position)).getD stop⟩ := by
  obtain ⟨_, _, _⟩ := k
  obtain ⟨_, he, h⟩ := h
  cases hk
  cases he
  refine bind_eq_error_iff.mpr (.inr ⟨_, h, ?_⟩)
  dsimp only
  split
  case h_1 => exact (hr _ rfl rfl).elim
  case h_2 => rfl
  case h_3 => rfl

theorem ending_not (hk : k.lexeme = .not) (h : Ending stop n .negation ts) :
    Ending stop (n + 1) .negation (k :: ts) := by
  cases h
  case read used rest us he hd hr =>
    obtain ⟨t, rfl⟩ := hd.operand_one (c := .and)
    exact .read (k :: used) rest _ (by rw [he]; rfl) (.not hk hd) fun others ho => reads_not hk (hr others ho)
  case ended e hf hp hv => exact .ended e (fails_not hk hf) hp (hv.not hk)
  case refused before l after he hv hf =>
    refine .refused (k :: before) l after (by rw [he]; rfl) (hv.not hk) fun others => ?_
    have ⟨e, hf, hp⟩ := hf others
    exact ⟨e, fails_not hk hf, hp⟩

theorem ending_group (hk : k.lexeme = .openParenthesis) (h : Ending stop n .expression ts) :
    Ending stop (n + 1) .negation (k :: ts) := by
  cases h
  case read used rest us he hd hr =>
    obtain ⟨t, rfl⟩ := hd.joined_one
    have hv : Viable (n + 1) .negation (k :: used) := .group hk ⟨[], [t], by rwa [List.append_nil]⟩
    cases rest
    case nil =>
      rw [List.append_nil] at he
      have hf := fails_unclosed hk (hr [] rfl) nofun
      rw [List.append_nil, ← he] at hf
      exact .ended _ hf rfl (he ▸ hv)
    case cons l rest =>
      by_cases hl : l.lexeme = .closeParenthesis
      case pos =>
        refine .read (k :: used ++ [l]) rest [t] (by rw [he]; simp) (.group hk hd hl) fun others _ => ?_
        rw [List.append_assoc, List.cons_append]
        exact reads_group hk hl (hr _ rfl)
      case neg =>
        refine .refused (k :: used) l rest (by rw [he]; rfl) hv fun others => ?_
        exact ⟨_, fails_unclosed hk (hr _ rfl) (by rintro _ ⟨⟩; exact hl), rfl⟩
  case ended e hf hp hv => exact .ended e (fails_group hk hf) hp (hv.group hk)
  case refused before l after he hv hf =>
    refine .refused (k :: before) l after (by rw [he]; rfl) (hv.group hk) fun others => ?_
    have ⟨e, hf, hp⟩ := hf others
    exact ⟨e, fails_group hk hf, hp⟩

-- Nothing is read beyond a token that no negation starts with.
theorem ending_stuck (h : ∀ ts, ∃ e, negation stop n (k :: ts) = .error e ∧ e.position = k.position) :
    Ending stop n .negation (k :: ts) :=
  .refused [] k ts rfl .name h

theorem ending_negation (stop n : Nat) (ts : List Token) : Ending stop n .negation ts := by
  induction n generalizing ts
  case zero =>
    cases ts
    case nil => exact .ended _ rfl rfl .name
    case cons k ts =>
      obtain ⟨l, p, w⟩ := k
      cases l
      case word s => exact ending_leaf rfl (fun _ => rfl) ts
      all_goals exact ending_stuck fun _ => ⟨_, rfl, rfl⟩
  case succ n hi =>
    cases ts
    case nil => exact .ended _ rfl rfl .name
    case cons k ts =>
      obtain ⟨l, p, w⟩ := k
      cases l
      case word s => exact ending_leaf rfl (fun _ => rfl) ts
      case not => exact ending_not rfl (hi ts)
      case openParenthesis => exact ending_group rfl (.expression hi ts)
      all_goals exact ending_stuck fun _ => ⟨_, rfl, rfl⟩

theorem not_accepted (h : ofTokens stop ts = .error e) : ¬Accepted ts :=
  fun ⟨_, hd⟩ => nomatch h.symm.trans (ofTokens_of_derives stop hd)

theorem ofTokens_fails (hn : ts ≠ []) (h : Fails stop 100 .expression ts e) : ofTokens stop ts = .error e := by
  unfold ofTokens
  rw [if_neg (by simpa using hn)]
  exact bind_eq_error_iff.mpr (.inl h)

theorem ofTokens_unread (hn : ts ≠ []) (h : Reads stop 100 .expression ts us (k :: rest)) :
    ofTokens stop ts = .error ⟨.unexpectedToken k.lexeme.value, k.position⟩ := by
  have ⟨_, _, h⟩ := h
  unfold ofTokens
  rw [if_neg (by simpa using hn)]
  exact bind_eq_error_iff.mpr (.inr ⟨_, h, rfl⟩)

-- Where tokens are refused:
-- 1. at the end of the text if more of them might be accepted; if there are none at all, at its start
-- 2. otherwise at the first token behind which nothing makes them acceptable
inductive Refused (stop : Nat) (ts : List Token) (position : Nat) : Prop
  | ended : position = (if ts = [] then 0 else stop) → Acceptable ts → Refused stop ts position
  | token (before : List Token) (k : Token) (after : List Token) :
    ts = before ++ k :: after → position = k.position → Acceptable before →
    (∀ others, ¬Accepted (before ++ k :: others)) → Refused stop ts position

theorem refused_of_ofTokens (h : ofTokens stop ts = .error e) : Refused stop ts e.position := by
  by_cases hn : ts = []
  case pos =>
    cases hn
    cases h
    exact .ended rfl Viable.name.expression.acceptable
  case neg =>
    have hb {before : List Token} {k : Token} {others : List Token} : before ++ k :: others ≠ [] := by simp
    cases Ending.expression (ending_negation stop 100) ts
    case read used rest us he hd hr =>
      obtain ⟨t, rfl⟩ := hd.joined_one
      cases rest
      case nil =>
        rw [List.append_nil] at he
        cases h.symm.trans (ofTokens_of_derives stop (he ▸ hd))
      case cons k rest =>
        cases h.symm.trans (ofTokens_unread hn (he ▸ hr _ rfl))
        exact .token used k rest he rfl ⟨[], t, by rwa [List.append_nil]⟩ fun others =>
          not_accepted (ofTokens_unread hb (hr _ rfl))
    case ended f hf hp hv =>
      cases h.symm.trans (ofTokens_fails hn hf)
      exact .ended (by rw [if_neg hn, hp]) hv.acceptable
    case refused before k after he hv hf =>
      have ⟨f, hf', hp⟩ := hf after
      cases h.symm.trans (ofTokens_fails hn (he ▸ hf'))
      exact .token before k after he hp hv.acceptable fun others =>
        have ⟨_, hf, _⟩ := hf others
        not_accepted (ofTokens_fails hb hf)

end Tree

end LabelPlaylists.Criteria
