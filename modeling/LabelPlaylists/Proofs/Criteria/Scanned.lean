import LabelPlaylists.Criteria.Token
import LabelPlaylists.Proofs.Result
import Mathlib.Data.List.TakeWhile

namespace LabelPlaylists

namespace Text

theorem mem_digitRanges {c : Char} (h : isDigit c) :
    ∃ r ∈ digitRanges, r.1 ≤ c.toNat ∧ c.toNat ≤ r.2 := by
  unfold isDigit digitValue? at h
  rw [Option.isSome_map] at h
  obtain ⟨r, hr, hc⟩ := List.find?_isSome.mp h
  exact ⟨r, hr, by simpa using hc⟩

theorem isBlank_of_isDigit {c : Char} (h : isDigit c) : isBlank c = false := by
  have ⟨r, hr, hc⟩ := mem_digitRanges h
  have ht : digitRanges.all fun r => blankRanges.all fun b => Nat.blt r.2 b.1 || Nat.blt b.2 r.1 := by
    decide +kernel
  refine Bool.eq_false_iff.mpr fun hb => ?_
  have ⟨b, hb, hc'⟩ := Ranges.has_iff.mp hb
  have ht := List.all_eq_true.mp (List.all_eq_true.mp ht r hr) b hb
  simp only [Bool.or_eq_true, Nat.blt_eq] at ht
  omega

-- Every digit is a word character.
theorem isWordChar_of_isDigit {c : Char} (h : isDigit c) : isWordChar c := by
  obtain ⟨r, hr, hc⟩ := mem_digitRanges h
  have ht : digitRanges.all fun r =>
      r == (48, 57) || Nat.ble 128 r.1 && wordRanges.any fun w => Nat.ble w.1 r.1 && Nat.ble r.2 w.2 := by
    decide +kernel
  have ht := List.all_eq_true.mp ht r hr
  simp only [Bool.or_eq_true, beq_iff_eq, Bool.and_eq_true, Nat.ble_eq, List.any_eq_true] at ht
  unfold isWordChar
  rcases ht with rfl | ⟨hl, w, hw, hl', hu⟩
  case inl =>
    have ha : ∀ n < 58, 48 ≤ n → (Char.ofNat n).isAlphanum := by decide +kernel
    have ha := ha c.toNat (Nat.lt_succ_of_le hc.right) hc.left
    rw [Char.ofNat_toNat] at ha
    rw [if_pos (by omega), ha]
    rfl
  case inr =>
    rw [if_neg (by omega)]
    exact Ranges.has_iff.mpr ⟨w, hw, by omega, by omega⟩

end Text

namespace Criteria

namespace Token

-- What may stand between the quotes of a string: a backslash takes any character but a line break
-- with it.
inductive Body (quote : Char) : List Char → Prop
  | nil    : Body quote []
  | plain  : c ≠ quote → c ≠ Text.backslash → Body quote rest → Body quote (c :: rest)
  | escape : c ≠ '\n' → Body quote rest → Body quote (Text.backslash :: c :: rest)

-- The value of a string by what stands between its quotes.
inductive Spells (quote : Char) : List Char → List Char → Prop
  | nil    : Spells quote [] []
  | plain  : c ≠ quote → c ≠ Text.backslash → Spells quote body value → Spells quote (c :: body) (c :: value)
  | escape : c ≠ '\n' → Spells quote body value → Spells quote (Text.backslash :: c :: body) (c :: value)

-- A token starts at the front of a text. Digits are a number only if no word goes on behind them.
inductive Begins : List Char → Prop
  | symbol  : c ∈ ['(', ')', '=', '<', '>', '~'] → Begins (c :: rest)
  | differs : Begins ('!' :: '=' :: rest)
  | number  :
    Text.isDigit c → (∀ d ∈ digits, Text.isDigit d) → (∀ d ∈ rest.head?, ¬Text.isWordChar d) →
    Begins (c :: (digits ++ rest))
  | string  :
    quote ∈ [Text.singleQuote, Text.doubleQuote] → Body quote body → Begins (quote :: (body ++ quote :: rest))
  | word    : isNameStart c → Begins (c :: rest)

variable {c quote : Char} {rest front more : List Char} {n skip position : Nat}

theorem stringBody?_quote : stringBody? quote (quote :: rest) = some ([], 1) := by
  simp [stringBody?.eq_def quote (quote :: _)]

theorem stringBody?_plain (hq : c ≠ quote) (hs : c ≠ Text.backslash) :
    stringBody? quote (c :: rest) = (stringBody? quote rest).map fun (value, n) => (c :: value, n + 1) := by
  simp [stringBody?.eq_def quote (c :: _), hq, hs]

theorem stringBody?_escape (hq : quote ≠ Text.backslash) (hc : c ≠ '\n') :
    stringBody? quote (Text.backslash :: c :: rest)
      = (stringBody? quote rest).map fun (value, n) => (c :: value, n + 2) := by
  simp [stringBody?, hq.symm, hc]

-- The quote behind a body closes the string, whatever follows.
theorem stringBody?_of_spells {body value : List Char} (h : Spells quote body value)
    (hq : quote ≠ Text.backslash) :
    stringBody? quote (body ++ quote :: rest) = some (value, body.length + 1) := by
  induction h
  case nil => exact stringBody?_quote
  case plain hc hs _ hi => rw [List.cons_append, stringBody?_plain hc hs, hi]; rfl
  case escape hc _ hi =>
    rw [List.cons_append, List.cons_append, stringBody?_escape hq hc, hi]
    rfl

-- What is read of a string ends at its closing quote.
theorem spells_of_stringBody? {value : List Char} (h : stringBody? quote rest = some (value, n)) :
    ∃ body behind, rest = body ++ quote :: behind ∧ body.length + 1 = n ∧ Spells quote body value := by
  fun_induction stringBody? quote rest generalizing value n
  case case1 => cases h
  case case2 rest =>
    cases h
    exact ⟨[], rest, rfl, rfl, .nil⟩
  case case3 => cases h
  case case4 => cases h
  case case5 d rest hd hq hi =>
    have ⟨⟨v, m⟩, hv, he⟩ := Option.map_eq_some_iff.mp h
    cases he
    obtain ⟨body, behind, rfl, rfl, hb⟩ := hi hv
    exact ⟨Text.backslash :: d :: body, behind, rfl, rfl, .escape hd hb⟩
  case case6 c rest hq hc hi =>
    have ⟨⟨v, m⟩, hv, he⟩ := Option.map_eq_some_iff.mp h
    cases he
    obtain ⟨body, behind, rfl, rfl, hb⟩ := hi hv
    exact ⟨c :: body, behind, rfl, rfl, .plain hq hc hb⟩

theorem Body.spells {body : List Char} (h : Body quote body) : ∃ value, Spells quote body value := by
  induction h
  case nil                => exact ⟨[], .nil⟩
  case plain c _ hc hs _ hi => exact hi.imp' (c :: ·) fun _ => .plain hc hs
  case escape c _ hc _ hi   => exact hi.imp' (c :: ·) fun _ => .escape hc

theorem Spells.body {body value : List Char} (h : Spells quote body value) : Body quote body := by
  induction h
  case nil              => exact .nil
  case plain hc hs _ hi => exact .plain hc hs hi
  case escape hc _ hi   => exact .escape hc hi

-- Characters that no number and no name starts with.
def marks : List Char := ['(', ')', '!', '<', '>', '=', '~', Text.singleQuote, Text.doubleQuote]

theorem isDigit_of_mem_marks (h : c ∈ marks) : Text.isDigit c = false := by
  have ht : marks.all (!Text.isDigit ·) := by decide +kernel
  simpa using List.all_eq_true.mp ht c h

theorem of_isNameStart (h : isNameStart c) :
    Text.isBlank c = false ∧ Text.isDigit c = false ∧ c ∉ marks := by
  have hn : c.toNat < 128 := by
    have h : (decide (65 ≤ c.val ∧ c.val ≤ 90) || (97 ≤ c.val && c.val ≤ 122) || c = '_') = true := h
    simp only [Bool.or_eq_true, Bool.and_eq_true, decide_eq_true_eq, UInt32.le_iff_toNat_le] at h
    rcases h with (⟨-, h⟩ | ⟨-, h⟩) | rfl
    · exact Nat.lt_of_le_of_lt h (by decide)
    · exact Nat.lt_of_le_of_lt h (by decide)
    · decide
  have ht : ∀ n < 128, isNameStart (Char.ofNat n) →
      Text.isBlank (Char.ofNat n) = false ∧ Text.isDigit (Char.ofNat n) = false ∧ Char.ofNat n ∉ marks := by
    decide +kernel
  have hc := ht c.toNat hn
  rw [Char.ofNat_toNat] at hc
  exact hc h

-- A run of characters that fits into the front of a text is the same there.
theorem takeWhile_front {p : Char → Bool} (h : ((front ++ more).takeWhile p).length ≤ front.length) :
    (front ++ more).takeWhile p = front.takeWhile p ∧
      ∀ c ∈ (front.dropWhile p).head?, c ∈ ((front ++ more).dropWhile p).head? := by
  induction front
  case nil => exact ⟨List.eq_nil_of_length_eq_zero (Nat.le_zero.mp h), nofun⟩
  case cons c front hi =>
    cases hc : p c
    case false => simp [hc]
    case true  =>
      have hi := hi (by simpa [hc] using h)
      simpa [hc] using hi

theorem stringBody?_front {value : List Char} (h : stringBody? quote (front ++ more) = some (value, n))
    (hn : n ≤ front.length) (hq : quote ≠ Text.backslash) :
    stringBody? quote front = some (value, n) := by
  obtain ⟨body, behind, he, rfl, hs⟩ := spells_of_stringBody? h
  have hp : body ++ [quote] <+: front ++ more := ⟨behind, by rw [he]; simp⟩
  obtain ⟨rest, rfl⟩ := List.prefix_of_prefix_length_le hp (List.prefix_append front more) (by simpa)
  have h : stringBody? quote (body ++ quote :: rest) = _ := stringBody?_of_spells hs hq
  simpa using h

theorem start_symbol (h : c ∈ ['(', ')', '=', '<', '>', '~']) : ∃ l n, start c rest = .lexeme l n := by
  simp only [List.mem_cons, List.not_mem_nil, or_false] at h
  rcases h with rfl | rfl | rfl | rfl | rfl | rfl
  case inr.inr.inr.inl | inr.inr.inr.inr.inl =>
    by_cases hr : rest.head? = some '='
    · exact ⟨_, _, if_pos hr⟩
    · exact ⟨_, _, if_neg hr⟩
  all_goals exact ⟨_, _, rfl⟩

theorem start_number (hb : Text.isBlank c = false) (hd : Text.isDigit c)
    (hr : ∀ d ∈ (rest.dropWhile Text.isDigit).head?, ¬Text.isWordChar d) :
    start c rest = .lexeme (.number (String.ofList (c :: rest.takeWhile Text.isDigit)))
      (rest.takeWhile Text.isDigit).length := by
  have hs : c ∉ marks := fun h => by simp [isDigit_of_mem_marks h] at hd
  simp only [marks, List.mem_cons, not_or] at hs
  fun_cases start c rest
  case case11 d behind hr' hw => simp_all
  case case12 => rfl
  case case13 => rfl
  all_goals simp_all

theorem start_string {value : List Char} (hq : c ∈ [Text.singleQuote, Text.doubleQuote])
    (h : stringBody? c rest = some (value, n)) :
    start c rest = .lexeme (.string (String.ofList value)) n := by
  have ⟨hb, hd, hs⟩ : Text.isBlank c = false ∧ Text.isDigit c = false ∧
      c ∉ ['(', ')', '!', '<', '>', '=', '~'] := by
    simp only [List.mem_cons, List.not_mem_nil, or_false] at hq
    rcases hq with rfl | rfl <;> decide +kernel
  simp only [List.mem_cons, not_or] at hq hs
  fun_cases start c rest
  case case14 h' => cases h.symm.trans h'; rfl
  all_goals simp_all

theorem start_word (h : isNameStart c) :
    start c rest = .lexeme (.ofWord (String.ofList (c :: rest.takeWhile isNameChar)))
      (rest.takeWhile isNameChar).length := by
  have ⟨hb, hd, hs⟩ := of_isNameStart h
  simp only [marks, List.mem_cons, not_or] at hs
  fun_cases start c rest
  case case16 => rfl
  all_goals simp_all

theorem start_of_begins (hb : Text.isBlank c = false) (h : Begins (c :: rest)) :
    ∃ l n, start c rest = .lexeme l n := by
  cases h
  case symbol h  => exact start_symbol h
  case differs   => exact ⟨_, _, rfl⟩
  case number digits behind hn hr hd =>
    refine ⟨_, _, start_number hb hd fun d hm => ?_⟩
    rw [List.dropWhile_append_of_pos hn] at hm
    cases behind
    case nil  => cases hm
    case cons e behind =>
      have he := hr e rfl
      rw [List.dropWhile_cons_of_neg (mt Text.isWordChar_of_isDigit he)] at hm
      cases hm
      exact he
  case string behind hq hb =>
    have hn : c ≠ Text.backslash := by rintro rfl; revert hq; decide
    have ⟨_, hs⟩ := hb.spells
    exact ⟨_, _, start_string hq (stringBody?_of_spells hs hn)⟩
  case word h => exact ⟨_, _, start_word h⟩

theorem begins_of_start {l : Lexeme} (h : start c rest = .lexeme l n) : Begins (c :: rest) := by
  revert h
  fun_cases start c rest <;> intro h <;> cases h
  case case4 h =>
    obtain ⟨rfl, h⟩ := h
    obtain ⟨rest, rfl⟩ := List.head?_eq_some_iff.mp h
    exact .differs
  case case12 hd digits d behind hr hw =>
    rw [← List.takeWhile_append_dropWhile (p := Text.isDigit) (l := rest)]
    exact .number hd (fun _ => List.mem_takeWhile_imp) (by simpa [hr] using hw)
  case case13 hd digits hr =>
    rw [← List.takeWhile_append_dropWhile (p := Text.isDigit) (l := rest)]
    exact .number hd (fun _ => List.mem_takeWhile_imp) (by simp [hr])
  case case14 hq value hs =>
    obtain ⟨body, behind, rfl, -, hs⟩ := spells_of_stringBody? hs
    exact .string (by simpa using hq) hs.body
  case case16 h _ => exact .word h
  all_goals exact .symbol (by simp [*])

-- What is no blank starts with a token exactly if one is found.
theorem begins_iff (hb : Text.isBlank c = false) :
    Begins (c :: rest) ↔ ∃ l n, start c rest = .lexeme l n :=
  ⟨start_of_begins hb, fun ⟨_, _, h⟩ => begins_of_start h⟩

-- A lexeme that fits into the front of a text is found there as well.
theorem start_front {l : Lexeme} (h : start c (front ++ more) = .lexeme l n) (hn : n ≤ front.length) :
    start c front = .lexeme l n := by
  have hf : front.head? = some '=' → (front ++ more).head? = some '=' := by cases front <;> simp
  revert h
  fun_cases start c (front ++ more) <;> intro h <;> cases h
  case case2 h | case3 h | case9 h | case10 h => cases h; rfl
  case case4 h =>
    obtain ⟨rfl, h⟩ := h
    cases front
    case nil  => cases hn
    case cons => cases h; rfl
  case case5 h h' | case7 h h' =>
    cases h
    cases front
    case nil  => cases hn
    case cons => cases h'; rfl
  case case6 h h' | case8 h h' => cases h; exact if_neg (mt hf h')
  case case12 hb _ _ _ _ _ _ _ hd digits d behind hr hw =>
    have ⟨ht, hf⟩ := takeWhile_front hn
    have hb := Bool.eq_false_iff.mpr hb
    have hs := start_number hb hd fun e he => by cases hr ▸ hf e he; exact hw
    rw [hs, ← ht]
  case case13 hb _ _ _ _ _ _ _ hd digits hr =>
    have ⟨ht, hf⟩ := takeWhile_front hn
    have hb := Bool.eq_false_iff.mpr hb
    have hs := start_number hb hd fun e he => nomatch hr ▸ hf e he
    rw [hs, ← ht]
  case case14 hq value hs =>
    have hb : c ≠ Text.backslash := by rintro rfl; revert hq; decide
    exact start_string (by simpa using hq) (stringBody?_front hs hn hb)
  case case16 h _ => rw [start_word h, ← (takeWhile_front hn).left]

theorem start_eq_blank_iff : start c rest = .blank ↔ Text.isBlank c := by
  fun_cases start c rest <;> simp_all

theorem not_begins (hb : start c rest ≠ .blank) (hl : ∀ l n, start c rest ≠ .lexeme l n) :
    Text.isBlank c = false ∧ ¬Begins (c :: rest) := by
  have hb := Bool.eq_false_iff.mpr (mt start_eq_blank_iff.mpr hb)
  exact ⟨hb, fun h => have ⟨l, n, h⟩ := (begins_iff hb).mp h; hl l n h⟩

-- Where scanning stops no token starts, and all that stands before is scanned.
theorem scan_error {l : List Char} {e : Error} (h : scan skip position l = .error e) :
    ∃ front c rest, l = front ++ c :: rest ∧ e.position = position + front.length ∧
      skip ≤ front.length ∧ (∃ ts, scan skip position front = .ok ts) ∧
      Text.isBlank c = false ∧ ¬Begins (c :: rest) := by
  induction l generalizing skip position
  case nil => rw [scan] at h; cases h
  case cons c rest hi =>
    cases skip
    case succ skip =>
      rw [scan] at h
      obtain ⟨front, d, rest, rfl, hp, hl, hs, hd⟩ := hi h
      exact ⟨c :: front, d, rest, rfl, by rw [hp, List.length_cons]; omega, Nat.succ_le_succ hl, hs, hd⟩
    case zero =>
      rw [scan] at h
      cases hc : start c rest <;> rw [hc] at h
      case blank =>
        obtain ⟨front, d, rest, rfl, hp, -, ⟨ts, hs⟩, hd⟩ := hi h
        refine ⟨c :: front, d, rest, rfl, by rw [hp, List.length_cons]; omega, Nat.zero_le _, ⟨ts, ?_⟩, hd⟩
        rw [scan, start_eq_blank_iff.mpr (start_eq_blank_iff.mp hc)]
        exact hs
      case lexeme k n =>
        have h := (bind_eq_error_iff.mp h).resolve_right (fun ⟨_, _, h⟩ => nomatch h)
        obtain ⟨front, d, rest, rfl, hp, hl, ⟨ts, hs⟩, hd⟩ := hi h
        refine ⟨c :: front, d, rest, rfl, by rw [hp, List.length_cons]; omega, Nat.zero_le _,
          ⟨⟨k, position, n + 1⟩ :: ts, ?_⟩, hd⟩
        rw [scan, start_front hc hl]
        exact bind_eq_ok_iff.mpr ⟨ts, hs, rfl⟩
      case openString =>
        cases h
        exact ⟨[], c, rest, rfl, rfl, Nat.zero_le _, ⟨[], rfl⟩, not_begins (by simp [hc]) (by simp [hc])⟩
      case unknown =>
        cases h
        exact ⟨[], c, rest, rfl, rfl, Nat.zero_le _, ⟨[], rfl⟩, not_begins (by simp [hc]) (by simp [hc])⟩

-- Tokens stand one behind the other within the text.
theorem scan_position {l : List Char} {ts : List Token} (h : scan skip position l = .ok ts) :
    (∀ k ∈ ts, position ≤ k.position ∧ k.position < position + l.length) ∧
      ts.Pairwise (·.position < ·.position) := by
  induction l generalizing skip position ts
  case nil => rw [scan] at h; cases h; exact ⟨nofun, .nil⟩
  case cons c rest hi =>
    rw [List.length_cons]
    cases skip
    case succ skip =>
      rw [scan] at h
      have ⟨hb, hp⟩ := hi h
      exact ⟨fun k hk => by have := hb k hk; omega, hp⟩
    case zero =>
      rw [scan] at h
      cases hc : start c rest <;> rw [hc] at h
      case blank =>
        have ⟨hb, hp⟩ := hi h
        exact ⟨fun k hk => by have := hb k hk; omega, hp⟩
      case lexeme l n =>
        obtain ⟨us, hu, he⟩ := bind_eq_ok_iff.mp h
        cases he
        have ⟨hb, hp⟩ := hi hu
        refine ⟨List.forall_mem_cons.mpr ⟨⟨Nat.le_refl _, Nat.lt_add_of_pos_right (Nat.succ_pos _)⟩,
          fun k hk => ?_⟩, .cons (fun k hk => ?_) hp⟩
        · have := hb k hk
          omega
        · exact (hb k hk).left
      case openString => cases h
      case unknown    => cases h

end Token

end Criteria

end LabelPlaylists
