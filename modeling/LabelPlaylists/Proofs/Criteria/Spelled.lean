import LabelPlaylists.Proofs.Criteria.Written

namespace LabelPlaylists.Criteria

open Text (backslash doubleQuote singleQuote)

namespace Lexeme

def symbols : List Lexeme :=
  [.openParenthesis, .closeParenthesis, .operator .eq, .operator .ne, .operator .lt, .operator .le,
   .operator .gt, .operator .ge, .operator .contains]

-- How a lexeme may stand in a text: a keyword in any case, a string between quotes of either kind, and
-- everything else as it is.
inductive Spelled : Lexeme → List Char → Prop
  | symbol : l ∈ symbols → Spelled l l.value.toList
  | number : (∀ d ∈ c :: digits, Text.isDigit d) → Spelled (.number (String.ofList (c :: digits))) (c :: digits)
  | string {value : List Char} :
    quote ∈ [singleQuote, doubleQuote] → Token.Spells quote body value →
    Spelled (.string (String.ofList value)) (quote :: (body ++ [quote]))
  | word   :
    Token.isNameStart c → (∀ d ∈ run, Token.isNameChar d) →
    Spelled (.ofWord (String.ofList (c :: run))) (c :: run)

-- A lexeme as it is written: a string between quotes of the given kind, with a backslash before every
-- marked character.
def written (quote : Char) (marked : List Char) : Lexeme → List Char
  | .string value =>
    quote :: ((value.toList.flatMap fun c => if c ∈ marked then [backslash, c] else [c]) ++ [quote])
  | l             => l.value.toList

variable {l : Lexeme} {c quote : Char} {taken rest marked value : List Char} {n position : Nat}

-- Every string can be written, if the quote and the backslash are marked and no line break is.
theorem spells_marked (hs : backslash ∈ marked) (hq : quote ∈ marked) (hn : '\n' ∉ marked)
    (value : List Char) :
    Token.Spells quote (value.flatMap fun c => if c ∈ marked then [backslash, c] else [c]) value := by
  induction value
  case nil => exact .nil
  case cons c value hi =>
    rw [List.flatMap_cons]
    split
    case isTrue h  => exact .escape (fun he => hn (he ▸ h)) hi
    case isFalse h => exact .plain (fun he => h (he ▸ hq)) (fun he => h (he ▸ hs)) hi

theorem spelled_string (hq : quote ∈ [singleQuote, doubleQuote]) (hs : backslash ∈ marked)
    (hm : quote ∈ marked) (hn : '\n' ∉ marked) (value : String) :
    (Lexeme.string value).Spelled ((Lexeme.string value).written quote marked) := by
  have h := Spelled.string hq (spells_marked hs hm hn value.toList)
  rwa [String.ofList_toList] at h

-- A word that is no keyword stands for itself.
theorem ofWord_cases (s : String) : ofWord s = .word s ∨ ofWord s ∈ [.and, .or, .not, .true, .false] := by
  unfold ofWord
  split
  case h_6 => exact .inl rfl
  all_goals exact .inr (by decide)

theorem spelled_keyword (h : l ∈ [Lexeme.and, .or, .not, .true, .false]) : l.Spelled l.value.toList := by
  have ⟨c, run, hv, hl, hc, hr⟩ : ∃ c run, l.value.toList = c :: run ∧ ofWord (String.ofList (c :: run)) = l ∧
      Token.isNameStart c ∧ run.all Token.isNameChar := by
    simp only [List.mem_cons, List.not_mem_nil, or_false] at h
    rcases h with rfl | rfl | rfl | rfl | rfl <;> exact ⟨_, _, rfl, by decide +kernel⟩
  rw [hv]
  exact hl ▸ .word hc (List.all_eq_true.mp hr)

-- What can stand in a text at all can be written.
theorem Spelled.written (h : l.Spelled taken) (hq : quote ∈ [singleQuote, doubleQuote])
    (hs : backslash ∈ marked) (hm : quote ∈ marked) (hn : '\n' ∉ marked) :
    l.Spelled (l.written quote marked) := by
  cases h
  case symbol h =>
    have he : l.written quote marked = l.value.toList := by
      cases l <;> first | rfl | exact absurd h (by simp [symbols])
    exact he ▸ .symbol h
  case number c digits h =>
    have he : (Lexeme.number (String.ofList (c :: digits))).written quote marked = c :: digits :=
      String.toList_ofList
    rw [he]
    exact .number h
  case string => exact spelled_string hq hs hm hn _
  case word c run hc hr =>
    have hk (l : Lexeme) (h : l ∈ [Lexeme.and, .or, .not, .true, .false]) :
        l.written quote marked = l.value.toList := by
      cases l <;> first | rfl | exact absurd h (by simp)
    rcases ofWord_cases (String.ofList (c :: run)) with he | he
    case inl =>
      have hw := Spelled.word hc hr
      rw [he] at hw ⊢
      show (Lexeme.word _).Spelled (String.ofList (c :: run)).toList
      rwa [String.toList_ofList]
    case inr =>
      rw [hk _ he]
      exact spelled_keyword he

theorem Spelled.ne_nil (h : l.Spelled taken) : taken ≠ [] := by
  cases h
  case symbol h =>
    have ht : symbols.all fun l => !l.value.toList.isEmpty := by decide +kernel
    simpa using List.all_eq_true.mp ht l h
  all_goals exact List.cons_ne_nil _ _

end Lexeme

namespace Token

open Lexeme (Spelled)

-- Tokens as they are spelled in a text, `place` characters behind its beginning, with nothing but blanks
-- between and around them.
inductive Laid : Nat → List Char → List Token → Prop
  | nil   : Laid place [] []
  | blank : Text.isBlank c → Laid (place + 1) rest ts → Laid place (c :: rest) ts
  | token :
    l.Spelled taken → Laid (place + taken.length) rest ts →
    Laid place (taken ++ rest) (⟨l, place, taken.length⟩ :: ts)

-- The part of a text that a token takes.
def slice (text : List Char) (k : Token) : List Char := (text.drop k.position).take k.width

variable {l : Lexeme} {c : Char} {taken rest : List Char} {n position : Nat}

theorem spelled_symbol (taken : List Char) (h : l ∈ Lexeme.symbols) (hv : l.value.toList = c :: taken) :
    ∃ run behind, taken ++ rest = run ++ behind ∧ run.length = taken.length ∧ l.Spelled (c :: run) :=
  ⟨taken, rest, rfl, rfl, hv ▸ .symbol h⟩

-- What is found at the front of a text is spelled there.
theorem spelled_of_start (h : start c rest = .lexeme l n) :
    ∃ taken behind, rest = taken ++ behind ∧ taken.length = n ∧ l.Spelled (c :: taken) := by
  revert h
  fun_cases start c rest <;> intro h <;> cases h
  case case4 h =>
    obtain ⟨rfl, h⟩ := h
    obtain ⟨rest, rfl⟩ := List.head?_eq_some_iff.mp h
    exact spelled_symbol ['='] (by decide) rfl
  case case5 h he | case7 h he =>
    obtain ⟨rest, rfl⟩ := List.head?_eq_some_iff.mp he
    subst h
    exact spelled_symbol ['='] (by decide) rfl
  case case12 hd digits d behind hr hw =>
    refine ⟨digits, _, List.takeWhile_append_dropWhile.symm, rfl, .number ?_⟩
    exact List.forall_mem_cons.mpr ⟨hd, fun _ => List.mem_takeWhile_imp⟩
  case case13 hd digits hr =>
    refine ⟨digits, _, List.takeWhile_append_dropWhile.symm, rfl, .number ?_⟩
    exact List.forall_mem_cons.mpr ⟨hd, fun _ => List.mem_takeWhile_imp⟩
  case case14 hq value hs =>
    obtain ⟨body, behind, rfl, rfl, hb⟩ := spells_of_stringBody? hs
    exact ⟨body ++ [c], behind, by simp, by simp, .string (by simpa using hq) hb⟩
  case case16 h more =>
    exact ⟨more, _, List.takeWhile_append_dropWhile.symm, rfl, .word h fun _ => List.mem_takeWhile_imp⟩
  case case2 h | case3 h | case6 h _ | case8 h _ | case9 h | case10 h =>
    subst h
    exact spelled_symbol [] (by decide) rfl

theorem start_of_symbol (h : l ∈ Lexeme.symbols) :
    ∃ c run, l.value.toList = c :: run ∧
      ∀ rest : List Char, rest.head? ≠ some '=' → start c (run ++ rest) = .lexeme l run.length := by
  simp only [Lexeme.symbols, List.mem_cons, List.not_mem_nil, or_false] at h
  rcases h with rfl | rfl | rfl | rfl | rfl | rfl | rfl | rfl | rfl
  case inr.inr.inr.inr.inl | inr.inr.inr.inr.inr.inr.inl => exact ⟨_, _, rfl, fun _ hr => if_neg hr⟩
  all_goals exact ⟨_, _, rfl, fun _ _ => rfl⟩

-- What is spelled at the front of a text is found there, if the text ends behind it or goes on with a space.
theorem start_of_spelled (rest : List Char) (h : l.Spelled (c :: taken)) (hr : ∀ d ∈ rest.head?, d = ' ') :
    start c (taken ++ rest) = .lexeme l taken.length := by
  have hspace {p : Char → Bool} (hp : p ' ' = false) : rest.takeWhile p = [] ∧ rest.dropWhile p = rest := by
    cases rest
    case nil  => exact ⟨rfl, rfl⟩
    case cons => cases hr _ rfl; simp [hp]
  generalize ht : c :: taken = text at h
  cases h
  case symbol h =>
    have ⟨_, _, hv, hs⟩ := start_of_symbol h
    cases ht.trans hv
    exact hs rest fun he => nomatch hr _ he
  case number hd =>
    cases ht
    have ⟨hc, hd⟩ := List.forall_mem_cons.mp hd
    have ⟨htake, hdrop⟩ := hspace (p := Text.isDigit) (by decide +kernel)
    have hw : Text.isWordChar ' ' = false := by decide +kernel
    rw [start_number (Text.isBlank_of_isDigit hc) hc, List.takeWhile_append_of_pos hd, htake, List.append_nil]
    rw [List.dropWhile_append_of_pos hd, hdrop]
    intro d hm
    rw [hr d hm, hw]
    exact Bool.false_ne_true
  case string quote body value hq hs =>
    cases ht
    rw [List.append_assoc, List.length_append]
    exact start_string (by simpa using hq) (stringBody?_of_spells hs (by rintro rfl; revert hq; decide))
  case word hc hw =>
    cases ht
    have ⟨htake, _⟩ := hspace (p := isNameChar) (by decide)
    rw [start_word hc, List.takeWhile_append_of_pos hw, htake, List.append_nil]

-- What is scanned is laid out in the text, behind the characters of the token before.
theorem laid_of_scan {skip : Nat} {text : List Char} {ts : List Token}
    (h : scan skip position text = .ok ts) : Laid (position + skip) (text.drop skip) ts := by
  induction text generalizing skip position ts
  case nil =>
    rw [scan] at h
    cases h
    rw [List.drop_nil]
    exact .nil
  case cons c rest hi =>
    cases skip
    case succ skip =>
      rw [scan] at h
      exact Nat.add_right_comm position 1 skip ▸ hi h
    case zero =>
      rw [scan] at h
      cases hc : start c rest <;> rw [hc] at h
      case blank => exact .blank (start_eq_blank_iff.mp hc) (hi h)
      case lexeme l n =>
        obtain ⟨us, hu, he⟩ := bind_eq_ok_iff.mp h
        cases he
        obtain ⟨taken, behind, rfl, rfl, hs⟩ := spelled_of_start hc
        have hl := hi hu
        rw [List.drop_left] at hl
        exact .token hs (Nat.add_right_comm position 1 taken.length ▸ hl)
      case openString => cases h
      case unknown    => cases h

namespace Laid

variable {text : List Char} {ts : List Token}

theorem position_le (h : Laid position text ts) : ∀ k ∈ ts, position ≤ k.position := by
  induction h
  case nil => exact List.forall_mem_nil _
  case blank _ _ hi => exact fun k hk => Nat.le_of_succ_le (hi k hk)
  case token _ _ hi =>
    exact List.forall_mem_cons.mpr ⟨Nat.le_refl _, fun k hk => Nat.le_of_add_right_le (hi k hk)⟩

-- No token starts before the end of another one before it.
theorem pairwise (h : Laid position text ts) : ts.Pairwise fun k l => k.position + k.width ≤ l.position := by
  induction h
  case nil            => exact .nil
  case blank _ _ hi   => exact hi
  case token _ hl hi  => exact .cons hl.position_le hi

theorem spelled (front : List Char) (h : Laid front.length text ts) :
    ∀ k ∈ ts, 0 < k.width ∧ k.position + k.width ≤ (front ++ text).length ∧
      k.lexeme.Spelled (slice (front ++ text) k) := by
  generalize hp : front.length = position at h
  induction h generalizing front
  case nil => exact List.forall_mem_nil _
  case blank c _ rest _ _ _ hi =>
    have hi := hi (front ++ [c]) (by simp [hp])
    rwa [List.append_assoc] at hi
  case token _ rest _ taken _ hs _ hi =>
    have hi := hi (front ++ taken) (by simp [hp])
    rw [List.append_assoc] at hi
    refine List.forall_mem_cons.mpr ⟨⟨List.length_pos_iff.mpr hs.ne_nil, ?_, ?_⟩, hi⟩
    · simp [hp]
    · simpa [slice, ← hp] using hs

-- Whatever no token takes is blank.
theorem isBlank (h : Laid position text ts) {i : Nat} {c : Char} (hc : text[i]? = some c)
    (hi : ∀ k ∈ ts, position + i < k.position ∨ k.position + k.width ≤ position + i) : Text.isBlank c := by
  induction h generalizing i
  case nil => cases hc
  case blank hb _ ih =>
    cases i
    case zero   => cases hc; exact hb
    case succ i => exact ih hc (by simpa only [Nat.add_assoc, Nat.add_comm 1] using hi)
  case token rest _ taken _ _ _ ih =>
    have ⟨hk, hi⟩ := List.forall_mem_cons.mp hi
    have hk : taken.length ≤ i := by dsimp only at hk; omega
    obtain ⟨j, rfl⟩ := Nat.exists_eq_add_of_le hk
    rw [List.getElem?_append_right hk, Nat.add_sub_cancel_left] at hc
    exact ih hc (by simpa only [Nat.add_assoc] using hi)

end Laid

end Token

-- Tokens written back one by one, with single spaces between them.
def rewritten (quote : Char) (marked : List Char) (ts : List Token) : String :=
  String.ofList ([' '].intercalate (ts.map fun k => k.lexeme.written quote marked))

namespace Token

-- Lexemes that are spelled with single spaces between them are read back.
theorem scan_spaced {ls : List Lexeme} {ws : List (List Char)} (h : List.Forall₂ Lexeme.Spelled ls ws)
    (position : Nat) :
    ∃ ts, scan 0 position ([' '].intercalate ws) = .ok ts ∧ ts.map (·.lexeme) = ls := by
  induction h generalizing position
  case nil => exact ⟨[], rfl, rfl⟩
  case cons l w ls ws hl hs hi =>
    obtain ⟨c, taken, rfl⟩ := List.exists_cons_of_ne_nil hl.ne_nil
    cases ws
    case nil =>
      cases hs
      have hc := start_of_spelled [] hl nofun
      exact ⟨_, (by simpa using scan_lexeme hc rfl), rfl⟩
    case cons w ws =>
      have ⟨ts, hr, he⟩ := hi (position + taken.length + 1 + 1)
      have hc := start_of_spelled (' ' :: [' '].intercalate (w :: ws)) hl (by simp)
      refine ⟨⟨l, position, taken.length + 1⟩ :: ts, ?_, congrArg (l :: ·) he⟩
      rw [List.intercalate_cons_cons, List.append_assoc]
      exact scan_lexeme hc ((scan_blank (by decide)).trans hr)

end Token

open Token (slice)

-- Scanning loses nothing, and it can be undone.
-- 1. the tokens stand in the text one behind the other, each as it is spelled
-- 2. all else in the text is blank
-- 3. the tokens written back, with single spaces between them and strings between quotes of either kind, are
--    read again, if a backslash is put before every backslash and every such quote, and before no line break
-- 4. every string can be written so
theorem tokens_rewritten {text : String} {ts : List Token} (h : tokens text = .ok ts) :
    ((ts.Pairwise fun k l => k.position + k.width ≤ l.position) ∧
      ∀ k ∈ ts, 0 < k.width ∧ k.position + k.width ≤ text.toList.length ∧
        k.lexeme.Spelled (slice text.toList k)) ∧
    (∀ i c, text.toList[i]? = some c → (∀ k ∈ ts, i < k.position ∨ k.position + k.width ≤ i) →
      Text.isBlank c) ∧
    ∀ quote ∈ [singleQuote, doubleQuote], ∀ marked, backslash ∈ marked → quote ∈ marked → '\n' ∉ marked →
      (∃ us, tokens (rewritten quote marked ts) = .ok us ∧ us.map (·.lexeme) = ts.map (·.lexeme)) ∧
      ∀ value, ∃ width, tokens (String.ofList ((Lexeme.string value).written quote marked))
        = .ok [⟨.string value, 0, width⟩] := by
  have hl := Token.laid_of_scan h
  have hs := hl.spelled []
  refine ⟨⟨hl.pairwise, hs⟩, fun i c hc hi => ?_, fun quote hq marked hb hm hn => ⟨?_, fun value => ?_⟩⟩
  case refine_1 => exact hl.isBlank hc (by simpa using hi)
  case refine_2 =>
    have hw : List.Forall₂ Lexeme.Spelled (ts.map (·.lexeme))
        (ts.map fun k => k.lexeme.written quote marked) := by
      rw [List.forall₂_map_left_iff, List.forall₂_map_right_iff, List.forall₂_same]
      exact fun k hk => (hs k hk).right.right.written hq hb hm hn
    have ⟨us, hu, he⟩ := Token.scan_spaced hw 0
    exact ⟨us, by rwa [tokens, rewritten, String.toList_ofList], he⟩
  case refine_3 =>
    have hc := Token.start_of_spelled [] (Lexeme.spelled_string hq hb hm hn value) nofun
    rw [tokens, String.toList_ofList, Lexeme.written, ← List.append_nil (List.flatMap _ _ ++ [quote])]
    exact ⟨_, Token.scan_lexeme hc rfl⟩

-- A line break, both kinds of quotes and a backslash between single quotes.
def quotes : String := "NOT\t(name=\x27\x22\\\x27\n\\\\\\q\x27 )"

def quotesTokens : List Token :=
  [⟨.not, 0, 3⟩, ⟨.openParenthesis, 4, 1⟩, ⟨.word "name", 5, 4⟩, ⟨.operator .eq, 9, 1⟩,
   ⟨.string "\x22\x27\n\\q", 10, 10⟩, ⟨.closeParenthesis, 21, 1⟩]

theorem tokens_quotes : tokens quotes = .ok quotesTokens :=
  eq_ok_of_toOption (by decide +kernel)

theorem tokens_rewritten_quotes :
    tokens quotes = .ok quotesTokens ∧
    rewritten doubleQuote [backslash, doubleQuote] quotesTokens
      = "not ( name = \x22\\\x22\x27\n\\\\q\x22 )" ∧
    ∃ us, tokens "not ( name = \x22\\\x22\x27\n\\\\q\x22 )" = .ok us ∧
      us.map (·.lexeme) = quotesTokens.map (·.lexeme) := by
  have hw : rewritten doubleQuote [backslash, doubleQuote] quotesTokens
      = "not ( name = \x22\\\x22\x27\n\\\\q\x22 )" := by decide +kernel
  have ⟨_, _, h⟩ := tokens_rewritten tokens_quotes
  have ⟨h, _⟩ := h doubleQuote (by decide) [backslash, doubleQuote] (by decide) (by decide) (by decide)
  rw [hw] at h
  exact ⟨tokens_quotes, hw, h⟩

end LabelPlaylists.Criteria
