import LabelPlaylists.Criteria.Condition
import LabelPlaylists.Proofs.Criteria.Prefix
import LabelPlaylists.Proofs.Criteria.Scanned

namespace LabelPlaylists.Criteria

-- The operators and the literals that suit a kind of attribute.
def Kind.operators : Kind → List Operator
  | .text           => [.eq, .ne, .contains]
  | .bool           => [.eq, .ne]
  | .date | .number => [.eq, .ne, .lt, .le, .gt, .ge]

def Kind.Takes : Kind → Literal → Prop
  | .text, .text _     => True
  | .bool, .flag _     => True
  | .date, .text s     => ∃ d, Day.ofIso? s = some d
  | .number, .number n => -2 ^ 63 ≤ n ∧ n < 2 ^ 63
  | _, _               => False

-- What stands in a tree where it branches no more: a name, alone or compared.
structure Leaf where
  name       : String
  comparison : Option (Operator × Literal)
  position   : Nat

variable {name : String} {a : Attribute} {o : Operator} {v : Literal} {p : Nat}

namespace Leaf

-- The name is an attribute, and a true/false one if it stands alone. Otherwise the operator and the
-- literal suit its kind.
def Fits (l : Leaf) : Prop :=
  ∃ a, Attribute.ofName? l.name = some a ∧
    match l.comparison with
    | none        => a.kind = .bool
    | some (o, v) => o ∈ a.kind.operators ∧ a.kind.Takes v

theorem fits_comparison_iff (h : Attribute.ofName? name = some a) :
    Fits ⟨name, some (o, v), p⟩ ↔ o ∈ a.kind.operators ∧ a.kind.Takes v := by
  simp [Fits, h]

end Leaf

theorem Operator.textRelation?_isSome_iff {o : Operator} :
    o.textRelation?.isSome ↔ o ∈ Kind.text.operators := by
  cases o <;> simp [textRelation?, Kind.operators]

theorem Operator.relation?_isSome_iff {o : Operator} : o.relation?.isSome ↔ o ∈ Kind.date.operators := by
  cases o <;> simp [relation?, Kind.operators]

namespace Tree

mutual

-- The leaves of a tree, from left to right.
def leaves : Tree → List Leaf
  | .bare name position           => [⟨name, none, position⟩]
  | .comparison name o v position => [⟨name, some (o, v), position⟩]
  | .not t                        => leaves t
  | .and ts                       => allLeaves ts
  | .or ts                        => allLeaves ts
  | .foreign                      => []

def allLeaves : List Tree → List Leaf
  | []      => []
  | t :: ts => leaves t ++ allLeaves ts

end

end Tree

variable {ts : List Token} {us : List Tree} {t : Tree} {e : Error} {x : Symbol} {n : Nat}

namespace Condition

open Criteria.Tree (leaves allLeaves)

-- The outcome of checking the leaves from left to right: all of them fit, or the first that does not
-- is where the error stands.
def Checked (ls : List Leaf) : Except Error α → Prop
  | .ok _    => ∀ l ∈ ls, l.Fits
  | .error e => ∃ before l after,
    ls = before ++ l :: after ∧ (∀ b ∈ before, b.Fits) ∧ ¬l.Fits ∧ e.position = l.position

namespace Checked

variable {l : Leaf} {ls ms : List Leaf} {a : α}

theorem fits (h : l.Fits) : Checked [l] (.ok a) := by
  simpa [Checked] using h

theorem unfit (h : ¬l.Fits) (he : e.position = l.position) : Checked [l] (.error e : Except Error α) :=
  ⟨[], l, [], rfl, nofun, h, he⟩

theorem bind {x : Except Error α} {f : α → Except Error β} (hx : Checked ls x)
    (hf : ∀ a, Checked ms (f a)) : Checked (ls ++ ms) (x >>= f) := by
  cases x
  case error e =>
    have ⟨before, l, after, he, hb, hl⟩ := hx
    exact ⟨before, l, after ++ ms, by simp [he], hb, hl⟩
  case ok a =>
    show Checked (ls ++ ms) (f a)
    have hm := hf a
    cases hy : f a <;> rw [hy] at hm
    case error e =>
      have ⟨before, l, after, he, hb, hl⟩ := hm
      refine ⟨ls ++ before, l, after, by simp [he], fun b hb' => ?_, hl⟩
      exact (List.mem_append.mp hb').elim (hx b) (hb b)
    case ok b => exact fun l hl => (List.mem_append.mp hl).elim (hx l) (hm l)

theorem map {x : Except Error α} {f : α → β} (hx : Checked ls x) : Checked ls (x >>= fun a => .ok (f a)) := by
  rw [← List.append_nil ls]
  exact hx.bind fun _ => nofun

end Checked

theorem checked_bare : Checked (leaves (.bare name p)) (ofTree (.bare name p)) := by
  unfold ofTree leaves
  cases ha : Attribute.ofName? name
  case none => exact .unfit (by simp [Leaf.Fits, ha]) rfl
  case some a =>
    cases a
    case explicit => exact .fits ⟨_, ha, rfl⟩
    all_goals exact .unfit (by simp [Leaf.Fits, ha, Attribute.kind]) rfl

theorem checked_comparison : Checked (leaves (.comparison name o v p)) (ofTree (.comparison name o v p)) := by
  unfold ofTree leaves ofComparison
  cases ha : Attribute.ofName? name
  case none => exact .unfit (by simp [Leaf.Fits, ha]) rfl
  case some a =>
    have hl := Leaf.fits_comparison_iff (o := o) (v := v) (p := p) ha
    cases a <;> dsimp only
    case text a =>
      have hr := o.textRelation?_isSome_iff
      cases ho : o.textRelation? <;> rw [ho] at hr
      case none => exact .unfit (fun h => Bool.false_ne_true (hr.mpr (hl.mp h).left)) rfl
      case some r =>
        cases v
        case text => exact .fits (hl.mpr ⟨hr.mp rfl, trivial⟩)
        all_goals exact .unfit (fun h => (hl.mp h).right) rfl
    case explicit =>
      cases o
      case eq | ne =>
        cases v
        case flag => exact .fits (hl.mpr ⟨by decide, trivial⟩)
        all_goals exact .unfit (fun h => (hl.mp h).right) rfl
      all_goals exact .unfit (fun h => by simpa [Attribute.kind, Kind.operators] using (hl.mp h).left) rfl
    case day a =>
      have hr := o.relation?_isSome_iff
      cases ho : o.relation? <;> rw [ho] at hr
      case none => exact .unfit (fun h => Bool.false_ne_true (hr.mpr (hl.mp h).left)) rfl
      case some r =>
        cases v
        case text s =>
          dsimp only
          cases hd : Day.ofIso? s
          case none =>
            refine .unfit (fun h => ?_) rfl
            obtain ⟨d, h⟩ := (hl.mp h).right
            cases hd.symm.trans h
          case some d => exact .fits (hl.mpr ⟨hr.mp rfl, d, hd⟩)
        all_goals exact .unfit (fun h => (hl.mp h).right) rfl
    case year =>
      have hr := o.relation?_isSome_iff
      cases ho : o.relation? <;> rw [ho] at hr
      case none => exact .unfit (fun h => Bool.false_ne_true (hr.mpr (hl.mp h).left)) rfl
      case some r =>
        cases v
        case number k =>
          dsimp only
          split
          case isTrue hk  => exact .fits (hl.mpr ⟨hr.mp rfl, hk⟩)
          case isFalse hk => exact .unfit (fun h => hk (hl.mp h).right) rfl
        all_goals exact .unfit (fun h => (hl.mp h).right) rfl

theorem checked_all (h : ∀ t ∈ us, Checked (leaves t) (ofTree t)) : Checked (allLeaves us) (ofTrees us) := by
  induction us
  case nil => exact nofun
  case cons t us hi =>
    have ⟨ht, hu⟩ := List.forall_mem_cons.mp h
    exact ht.bind fun _ => (hi hu).map

theorem checked_of_derives (h : Derives n x ts us) : ∀ t ∈ us, Checked (leaves t) (ofTree t) := by
  induction h
  case name           => simpa using checked_bare
  case comparison     => simpa using checked_comparison
  case not hi         => simpa [leaves, ofTree] using Checked.map (by simpa using hi)
  case group hi       => exact hi
  case last hi        => exact hi
  case more hi hi'    => exact List.forall_mem_cons.mpr ⟨hi _ (List.mem_singleton_self _), hi'⟩
  case alone hi       => exact hi
  case join c ts us _ _ hi =>
    have hc := checked_all hi
    cases c <;> simpa [Connective.node, leaves, ofTree] using hc.map

end Condition

-- The words among tokens, as attributes are named, and where they stand.
def words (ts : List Token) : List (String × Nat) :=
  ts.filterMap fun k =>
    match k.lexeme with
    | .word s => some (s.map Char.toLower, k.position)
    | _       => none

theorem words_append (ts us : List Token) : words (ts ++ us) = words ts ++ words us :=
  List.filterMap_append

theorem words_word {k : Token} {s : String} (h : k.lexeme = .word s) :
    words (k :: ts) = (s.map Char.toLower, k.position) :: words ts := by
  simp [words, h]

theorem words_other {k : Token} (h : ∀ s, k.lexeme ≠ .word s) : words (k :: ts) = words ts := by
  unfold words
  rw [List.filterMap_cons]
  split
  case h_1 => rfl
  case h_2 hk =>
    split at hk
    case h_1 s hs => exact (h s hs).elim
    case h_2      => cases hk

theorem sublist_words (ts : List Token) : ((words ts).map (·.2)).Sublist (ts.map (·.position)) := by
  induction ts
  case nil => exact .slnil
  case cons k ts hi =>
    by_cases hk : ∃ s, k.lexeme = .word s
    case pos =>
      have ⟨s, hs⟩ := hk
      rw [words_word hs]
      exact hi.cons_cons _
    case neg =>
      rw [words_other fun s hs => hk ⟨s, hs⟩]
      exact hi.cons _

open Criteria.Tree (leaves allLeaves)

-- The leaves of a tree are the words among its tokens.
theorem words_of_derives (h : Derives n x ts us) :
    (allLeaves us).map (fun l => (l.name, l.position)) = words ts := by
  induction h
  case name hk => simp [allLeaves, leaves, words, hk]
  case comparison hk ho hl =>
    rw [words_word hk, words_other (by simp [ho]), words_other (by rintro s hs; rw [hs] at hl; cases hl)]
    rfl
  case not hk _ hi =>
    rw [words_other (by simp [hk]), ← hi]
    rfl
  case group hk _ hl hi =>
    rw [List.cons_append, words_other (by simp [hk]), words_append, words_other (by simp [hl]), hi]
    exact (List.append_nil _).symm
  case last hi => exact hi
  case more c _ _ _ _ _ _ hk _ hi hi' =>
    have hc : ∀ s, c.lexeme ≠ .word s := by cases c <;> nofun
    rw [words_append, words_other (by simpa [hk] using hc), ← hi, ← hi', ← List.map_append]
    simp [allLeaves]
  case alone hi => exact hi
  case join c ts us _ _ hi =>
    rw [← hi]
    cases c <;> simp [allLeaves, leaves, Connective.node]

-- The leaves stand one behind the other.
theorem pairwise_leaves {text : String} (hs : tokens text = .ok ts) (h : Derives n x ts us) :
    (allLeaves us).Pairwise (·.position < ·.position) := by
  have hp := (Token.scan_position hs).right
  rw [← List.pairwise_map (R := (· < ·))] at hp ⊢
  have hw := congrArg (List.map (·.2)) (words_of_derives h)
  rw [List.map_map] at hw
  exact hp.sublist (hw ▸ sublist_words ts)

-- No token starts at a position in a text, and what stands before it are tokens.
structure Unscanned (text : String) (position : Nat) : Prop where
  inside : position < text.length
  before : ∃ ts, tokens (String.ofList (text.toList.take position)) = .ok ts
  stuck  : ¬Token.Begins (text.toList.drop position)

theorem unscanned_of_tokens {text : String} (h : tokens text = .error e) : Unscanned text e.position := by
  have ⟨front, c, rest, hl, hp, _, ⟨ts, hs⟩, _, hb⟩ := Token.scan_error h
  rw [Nat.zero_add] at hp
  refine ⟨?_, ⟨ts, ?_⟩, ?_⟩
  · rw [hp, ← String.length_toList, hl, List.length_append, List.length_cons]
    omega
  · rw [tokens, String.toList_ofList, hl, hp, List.take_left]
    exact hs
  · rw [hl, hp, List.drop_left]
    exact hb

-- The leftmost leaf of a tree that does not fit stands at a position.
structure Unfit (t : Tree) (position : Nat) : Prop where
  leaf  : ∃ l ∈ t.leaves, ¬l.Fits ∧ l.position = position
  first : ∀ l ∈ t.leaves, ¬l.Fits → position ≤ l.position

theorem unfit_of_ofTree {text : String} (hs : tokens text = .ok ts) (hd : Derives n .expression ts [t])
    (h : Condition.ofTree t = .error e) : Unfit t e.position := by
  have hc := Condition.checked_of_derives hd t (List.mem_singleton_self t)
  have hp := pairwise_leaves hs hd
  rw [allLeaves, allLeaves, List.append_nil] at hp
  rw [h] at hc
  have ⟨before, l, after, he, hb, hl, hp'⟩ := hc
  rw [hp']
  rw [he] at hp
  refine ⟨⟨l, he ▸ List.mem_append_cons_self, hl, rfl⟩, fun m hm hf => ?_⟩
  rw [he] at hm
  rcases List.mem_append.mp hm with hm | hm
  case inl => exact (hf (hb m hm)).elim
  case inr =>
    cases hm
    case head => exact Nat.le_refl _
    case tail hm => exact Nat.le_of_lt ((List.pairwise_cons.mp (List.pairwise_append.mp hp).right.left).left m hm)

theorem problem?_cases {text : String} (h : problem? text = some e) :
    tokens text = .error e ∨ ∃ ts, tokens text = .ok ts ∧
      (Tree.ofTokens text.length ts = .error e ∨
        ∃ t, Derives 100 .expression ts [t] ∧ Condition.ofTree t = .error e) := by
  unfold problem? at h
  split at h <;> cases h
  case h_2 hc =>
    rcases bind_eq_error_iff.mp hc with ht | ⟨t, ht, hc⟩
    case inl =>
      rcases bind_eq_error_iff.mp ht with hs | ⟨ts, hs, ht⟩
      · exact .inl hs
      · exact .inr ⟨ts, hs, .inl ht⟩
    case inr =>
      have ⟨ts, hs, ht⟩ := bind_eq_ok_iff.mp ht
      exact .inr ⟨ts, hs, .inr ⟨t, Tree.derives_of_ofTokens ht, hc⟩⟩

theorem position_le_of_mem {text : String} {k : Token} (hs : tokens text = .ok ts) (hk : k ∈ ts) :
    k.position ≤ text.length := by
  have hb := ((Token.scan_position hs).left k hk).right
  rw [String.length_toList] at hb
  omega

theorem Tree.Refused.le {text : String} {p : Nat} (hs : tokens text = .ok ts)
    (h : Refused text.length ts p) : p ≤ text.length := by
  cases h
  case ended hp _ => split at hp <;> omega
  case token before k after he hp _ _ => exact hp ▸ position_le_of_mem hs (he ▸ List.mem_append_cons_self)

theorem Unfit.le {text : String} {p : Nat} (hs : tokens text = .ok ts) (hd : Derives n .expression ts [t])
    (h : Unfit t p) : p ≤ text.length := by
  obtain ⟨l, hl, -, rfl⟩ := h.leaf
  have hw := words_of_derives hd
  rw [allLeaves, allLeaves, List.append_nil] at hw
  have hm : l.position ∈ (words ts).map (·.2) := by
    rw [← hw, List.map_map]
    exact List.mem_map_of_mem (f := fun l : Leaf => l.position) hl
  obtain ⟨k, hk, he⟩ := List.mem_map.mp ((sublist_words ts).mem hm)
  exact he ▸ position_le_of_mem hs hk

-- The position that belongs to rejected criteria:
-- 1. it is one of the text or its end
-- 2. where the text is no longer tokens
-- 3. where its tokens are refused, if they are read as no tree
-- 4. where the leftmost leaf that does not fit has its attribute, if there is a tree
structure Located (text : String) (position : Nat) : Prop where
  inside : position ≤ text.length
  scan   : ∀ e, tokens text = .error e → Unscanned text position
  read   : ∀ ts, tokens text = .ok ts → ¬Accepted ts → Tree.Refused text.length ts position
  fit    : ∀ ts t, tokens text = .ok ts → Derives 100 .expression ts [t] →
    Unfit t position ∧ t.leaves.map (fun l => (l.name, l.position)) = words ts

-- Whatever is wrong with criteria is reported exactly where it is.
theorem located_of_problem {text : String} {e : Error} (h : problem? text = some e) :
    Located text e.position := by
  rcases problem?_cases h with hs | ⟨ts, hs, ht | ⟨t, ht, hc⟩⟩
  case inl =>
    have hu := unscanned_of_tokens hs
    exact ⟨Nat.le_of_lt hu.inside, fun _ _ => hu, fun _ hs' => (nomatch hs.symm.trans hs'),
      fun _ _ hs' => (nomatch hs.symm.trans hs')⟩
  case inr.inl =>
    have hr := Tree.refused_of_ofTokens ht
    refine ⟨hr.le hs, fun _ hs' => (nomatch hs.symm.trans hs'), fun us hs' _ => ?_, fun us t hs' hd => ?_⟩
    · cases hs.symm.trans hs'
      exact hr
    · cases hs.symm.trans hs'
      exact (Tree.not_accepted ht ⟨t, hd⟩).elim
  case inr.inr =>
    have hu := unfit_of_ofTree hs ht hc
    refine ⟨hu.le hs ht, fun _ hs' => (nomatch hs.symm.trans hs'), fun us hs' ha => ?_, fun us u hs' hd => ?_⟩
    · cases hs.symm.trans hs'
      exact (ha ⟨t, ht⟩).elim
    · cases hs.symm.trans hs'
      cases (Tree.ofTokens_of_derives 0 ht).symm.trans (Tree.ofTokens_of_derives 0 hd)
      refine ⟨hu, ?_⟩
      rw [← words_of_derives ht, allLeaves, allLeaves, List.append_nil]

-- The caret stands below the attribute that is not known.
theorem located_unknown : Located "year = 12 or color" 13 := by
  have hp : (problem? "year = 12 or color").map (·.position) = some 13 := by decide +kernel
  have ⟨e, h, he⟩ := Option.map_eq_some_iff.mp hp
  exact he ▸ located_of_problem h

end LabelPlaylists.Criteria
