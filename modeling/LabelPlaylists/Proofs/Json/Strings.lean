import LabelPlaylists.Json.Reader
import LabelPlaylists.Json.Writer
import LabelPlaylists.Proofs.Text.Digits
import Mathlib.Tactic.SplitIfs

namespace LabelPlaylists.Json

open Text

variable {n : Nat} {c : Char} {done rest : List Char}

theorem hexValue?_digitChar : ∀ n < 16, hexValue? n.digitChar = some n := by
  decide

theorem hex_four (n : Nat) (h : n < 16 ^ 4) :
    hex 4 n = [(n / 16 / 16 / 16).digitChar, (n / 16 / 16 % 16).digitChar, (n / 16 % 16).digitChar,
      (n % 16).digitChar] := by
  have hb : 1 < 16 := by decide
  have hl : n / 16 / 16 / 16 < 16 := by omega
  show digitsIn 16 4 n = _
  rw [digitsIn_succ hb, digitsIn_succ hb, digitsIn_succ hb, digitsIn_one hl]
  rfl

theorem unit?_hex (h : n < 16 ^ 4) : unit? (hex 4 n ++ rest) = some (n, rest) := by
  have hd (m : Nat) : hexValue? (m % 16).digitChar = some (m % 16) :=
    hexValue?_digitChar _ (Nat.mod_lt _ (by decide))
  have hl : hexValue? (n / 16 / 16 / 16).digitChar = some (n / 16 / 16 / 16) :=
    hexValue?_digitChar _ (by omega)
  rw [hex_four n h]
  simp only [List.cons_append, List.nil_append, unit?, hd, hl, Option.bind_eq_bind,
    Option.bind_some, Option.some.injEq, Prod.mk.injEq, and_true]
  omega

-- A character is no half of a surrogate pair.
theorem not_surrogate (c : Char) : c.toNat < 0xD800 ∨ 0xE000 ≤ c.toNat := by
  have hv : c.toNat < 0xD800 ∨ 0xDFFF < c.toNat ∧ c.toNat < 0x110000 := c.valid
  omega

theorem escapedUnit?_single (h : c.toNat < 0x10000) :
    escapedUnit? (hex 4 c.toNat ++ rest) = some (c, rest) := by
  have hs := not_surrogate c
  simp only [escapedUnit?, unit?_hex h, Option.bind_eq_bind, Option.bind_some]
  rw [if_neg (by omega), if_neg (by omega), Char.ofNat_toNat]

theorem escapedUnit?_units {high low : Nat} (hh : 0xD800 ≤ high ∧ high < 0xDC00)
    (hl : 0xDC00 ≤ low ∧ low < 0xE000) :
    escapedUnit? (hex 4 high ++ (escapedUnit low ++ rest))
      = some (Char.ofNat (0x10000 + (high - 0xD800) * 1024 + (low - 0xDC00)), rest) := by
  have hu : unit? (hex 4 high ++ (escapedUnit low ++ rest))
      = some (high, escapedUnit low ++ rest) := unit?_hex (by omega)
  have hu' : unit? (hex 4 low ++ rest) = some (low, rest) := unit?_hex (by omega)
  unfold escapedUnit?
  rw [hu]
  show (if 0xD800 ≤ high ∧ high < 0xDC00 then _ else _) = _
  rw [if_pos hh, escapedUnit, List.cons_append, List.cons_append]
  simp only [backslash, hu']
  exact if_pos hl

theorem escapedUnit?_pair (h : 0x10000 ≤ c.toNat) :
    escapedUnit? (hex 4 (0xD800 + (c.toNat - 0x10000) / 1024)
        ++ (escapedUnit (0xDC00 + (c.toNat - 0x10000) % 1024) ++ rest)) = some (c, rest) := by
  have hv : c.toNat < 0xD800 ∨ 0xDFFF < c.toNat ∧ c.toNat < 0x110000 := c.valid
  have hc : 0x10000 + (0xD800 + (c.toNat - 0x10000) / 1024 - 0xD800) * 1024
      + (0xDC00 + (c.toNat - 0x10000) % 1024 - 0xDC00) = c.toNat := by omega
  rw [escapedUnit?_units (by omega) (by omega), hc, Char.ofNat_toNat]

theorem stringRest?_unit {s : List Char} (h : escapedUnit? s = some (c, rest)) :
    stringRest? (n + 1) done (backslash :: 'u' :: s) = stringRest? n (c :: done) rest := by
  unfold backslash
  rw [stringRest?, h]

theorem stringRest?_self (h : 32 ≤ c.toNat) (hq : c ≠ doubleQuote) (hb : c ≠ backslash) :
    stringRest? (n + 1) done (c :: rest) = stringRest? n (c :: done) rest := by
  rw [stringRest?]
  · exact if_neg (Nat.not_lt.mpr h)
  · exact hq
  · exact fun _ he => absurd he hb
  · exact fun _ _ he => absurd he hb

-- An escaped character is read back as one character.
theorem stringRest?_escapedChar (c : Char) :
    stringRest? (n + 1) done (escapedChar c ++ rest) = stringRest? n (c :: done) rest := by
  unfold escapedChar
  split_ifs with hq hn hr ht hb hf hp hu
  · rcases hq with rfl | rfl <;> rfl
  · rw [hn]; rfl
  · rw [hr]; rfl
  · rw [ht]; rfl
  · have hc : c = '\x08' := Char.toNat_inj.mp hb
    rw [hc]; rfl
  · have hc : c = '\x0c' := Char.toNat_inj.mp hf
    rw [hc]; rfl
  · exact stringRest?_self hp.left (not_or.mp hq).left (not_or.mp hq).right
  · exact stringRest?_unit (escapedUnit?_single hu)
  · rw [escapedUnit, List.append_assoc, List.cons_append, List.cons_append]
    exact stringRest?_unit (escapedUnit?_pair (Nat.not_lt.mp hu))

theorem stringRest?_escaped (s : List Char) (h : s.length < n) :
    stringRest? n done (s.flatMap escapedChar ++ doubleQuote :: rest)
      = some (String.ofList (done.reverse ++ s), rest) := by
  induction s generalizing n done
  case nil =>
    obtain ⟨n, rfl⟩ := Nat.exists_eq_succ_of_ne_zero (Nat.ne_of_gt h)
    rw [List.append_nil]
    rfl
  case cons c s hi =>
    obtain ⟨n, rfl⟩ := Nat.exists_eq_succ_of_ne_zero (Nat.ne_zero_of_lt h)
    rw [List.flatMap_cons, List.append_assoc, stringRest?_escapedChar,
      hi (Nat.lt_of_succ_lt_succ h), List.reverse_cons, List.append_assoc]
    rfl

theorem length_le_escaped (s : List Char) : s.length ≤ (s.flatMap escapedChar).length := by
  induction s
  case nil => exact Nat.le_refl 0
  case cons c s hi =>
    have hc : escapedChar c ≠ [] := by
      unfold escapedChar
      split_ifs <;> nofun
    have hc := List.length_pos_iff.mpr hc
    rw [List.flatMap_cons, List.length_append, List.length_cons]
    omega

theorem value?_stringText (s : String) :
    value? (n + 1) ((stringText s).toList ++ rest) = some (.str s, rest) := by
  have ht : (stringText s).toList ++ rest
      = doubleQuote :: (s.toList.flatMap escapedChar ++ doubleQuote :: rest) := by
    simp [stringText]
  have hl : s.toList.length
      < (s.toList.flatMap escapedChar ++ doubleQuote :: rest).length + 1 := by
    have := length_le_escaped s.toList
    rw [List.length_append]
    omega
  have hw (l : List Char) : word? (doubleQuote :: l) = none := rfl
  rw [ht]
  unfold value?
  rw [hw]
  show (stringRest? _ [] _).map _ = _
  rw [stringRest?_escaped s.toList hl, List.reverse_nil, List.nil_append,
    String.ofList_toList]
  rfl

-- The texts of strings with commas between them.
def joinedTexts (gs : List String) : List Char :=
  [',', ' '].intercalate (gs.map fun g => (stringText g).toList)

theorem joinedTexts_cons (g : String) (gs : List String) :
    ∃ tail, joinedTexts (g :: gs) = doubleQuote :: tail := by
  have ht (s : String) : ∃ tail, (stringText s).toList = doubleQuote :: tail :=
    ⟨_, by rw [stringText, String.toList_ofList, List.cons_append]⟩
  have ⟨tail, ht⟩ := ht g
  unfold joinedTexts
  cases gs
  case nil => exact ⟨tail, by simp [List.intercalate, ht]⟩
  case cons => exact ⟨_, by rw [List.map_cons, List.map_cons, List.intercalate_cons_cons, ht]; rfl⟩

theorem joinedTexts_cons_cons (g g' : String) (gs : List String) :
    joinedTexts (g :: g' :: gs)
      = (stringText g).toList ++ ',' :: ' ' :: joinedTexts (g' :: gs) := by
  unfold joinedTexts
  rw [List.map_cons, List.map_cons, List.intercalate_cons_cons, List.append_assoc]
  rfl

theorem joinedTexts_singleton (g : String) : joinedTexts [g] = (stringText g).toList := by
  simp [joinedTexts, List.intercalate]

theorem length_le_joinedTexts (gs : List String) : gs.length ≤ (joinedTexts gs).length := by
  induction gs
  case nil => exact Nat.zero_le _
  case cons g gs hi =>
    cases gs
    case nil =>
      have ⟨tail, ht⟩ := joinedTexts_cons g []
      rw [ht]
      exact Nat.succ_le_succ (Nat.zero_le _)
    case cons g' gs =>
      simp only [joinedTexts_cons_cons, List.length_append, List.length_cons] at hi ⊢
      omega

theorem elements?_joinedTexts {gs : List String} {done : List Json} (hn : gs ≠ [])
    (h : gs.length < n) :
    elements? n done (joinedTexts gs ++ ']' :: rest)
      = some (.arr (done.reverse ++ gs.map .str), rest) := by
  induction gs generalizing n done
  case nil => exact absurd rfl hn
  case cons g gs hi =>
    obtain ⟨n, rfl⟩ := Nat.exists_eq_succ_of_ne_zero (Nat.ne_zero_of_lt h)
    rw [List.length_cons] at h
    obtain ⟨n, rfl⟩ := Nat.exists_eq_succ_of_ne_zero (by omega : n ≠ 0)
    unfold elements?
    cases gs
    case nil =>
      rw [joinedTexts_singleton, value?_stringText, List.map_singleton, ← List.reverse_cons]
      rfl
    case cons g' gs =>
      have ⟨tail, ht⟩ := joinedTexts_cons g' gs
      rw [joinedTexts_cons_cons, List.append_assoc, value?_stringText]
      show elements? (n + 1) (.str g :: done) (skipBlanks (joinedTexts (g' :: gs) ++ ']' :: rest))
        = _
      have hs : skipBlanks (joinedTexts (g' :: gs) ++ ']' :: rest)
          = joinedTexts (g' :: gs) ++ ']' :: rest := by
        rw [ht]
        rfl
      rw [hs, hi (List.cons_ne_nil _ _) (by omega), List.reverse_cons, List.append_assoc]
      rfl

theorem text_strings (gs : List String) :
    (text (.arr (gs.map .str))).toList = '[' :: (joinedTexts gs ++ [']']) := by
  have he : elementTexts (gs.map .str) = gs.map stringText := by
    induction gs
    case nil          => rfl
    case cons g gs hi => rw [List.map_cons, elementTexts, hi, text]; rfl
  rw [text, he, String.toList_append, String.toList_append, String.toList_intercalate,
    List.map_map]
  rfl

theorem value?_strings (gs : List String) (h : gs.length < n) :
    value? (n + 1) ('[' :: (joinedTexts gs ++ [']'])) = some (.arr (gs.map .str), []) := by
  have hw (l : List Char) : word? ('[' :: l) = none := rfl
  unfold value?
  rw [hw]
  cases gs
  case nil => rfl
  case cons g gs =>
    have ⟨tail, ht⟩ := joinedTexts_cons g gs
    have he : elements? n [] (joinedTexts (g :: gs) ++ [']']) = some (.arr ((g :: gs).map .str), []) :=
      elements?_joinedTexts (List.cons_ne_nil g gs) h
    rw [ht] at he ⊢
    exact he

-- A list of texts that has been written is read back.
theorem read?_strings (gs : List String) :
    read? (text (.arr (gs.map .str))) = some (.arr (gs.map .str)) := by
  have hs (l : List Char) : skipBlanks ('[' :: l) = '[' :: l := rfl
  have hl : gs.length < 2 * ('[' :: (joinedTexts gs ++ [']'])).length + 1 := by
    have := length_le_joinedTexts gs
    rw [List.length_cons, List.length_append]
    omega
  unfold read?
  rw [text_strings, hs]
  dsimp only
  rw [value?_strings gs hl]
  rfl

/-! ## ASCII -/

theorem escapedUnit_ascii (h : n < 16 ^ 4) : ∀ d ∈ escapedUnit n, d.toNat < 128 := by
  have hd (m : Nat) (hm : m < 16) : m.digitChar.toNat < 128 :=
    (by decide : ∀ m < 16, m.digitChar.toNat < 128) m hm
  rw [escapedUnit, hex_four n h]
  simp only [List.forall_mem_cons]
  refine ⟨by decide, by decide, hd _ (by omega), hd _ (by omega), hd _ (by omega), hd _ (by omega), ?_⟩
  exact List.forall_mem_nil _

theorem marked_ascii (c : Char) (h : c.toNat < 128) : ∀ d ∈ ['\\', c], d.toNat < 128 :=
  List.forall_mem_cons.mpr ⟨by decide, List.forall_mem_singleton.mpr h⟩

-- A character of whatever script is escaped in ASCII.
theorem escapedChar_ascii (c : Char) : ∀ d ∈ escapedChar c, d.toNat < 128 := by
  have hv : c.toNat < 0xD800 ∨ 0xDFFF < c.toNat ∧ c.toNat < 0x110000 := c.valid
  unfold escapedChar
  split_ifs with hq hn hr ht hb hf hp hu
  · rcases hq with rfl | rfl <;> exact marked_ascii _ (by decide)
  · exact marked_ascii 'n' (by decide)
  · exact marked_ascii 'r' (by decide)
  · exact marked_ascii 't' (by decide)
  · exact marked_ascii 'b' (by decide)
  · exact marked_ascii 'f' (by decide)
  · exact List.forall_mem_singleton.mpr (Nat.lt_succ_of_lt hp.right)
  · exact escapedUnit_ascii hu
  · refine List.forall_mem_append.mpr ⟨escapedUnit_ascii ?_, escapedUnit_ascii ?_⟩ <;> omega

theorem stringText_ascii (s : String) : ∀ d ∈ (stringText s).toList, d.toNat < 128 := by
  rw [stringText, String.toList_ofList, List.cons_append]
  refine List.forall_mem_cons.mpr ⟨by decide, List.forall_mem_append.mpr
    ⟨fun d hd => ?_, List.forall_mem_singleton.mpr (by decide)⟩⟩
  have ⟨c, _, hd⟩ := List.mem_flatMap.mp hd
  exact escapedChar_ascii c d hd

theorem joinedTexts_ascii (gs : List String) : ∀ d ∈ joinedTexts gs, d.toNat < 128 := by
  induction gs
  case nil => exact List.forall_mem_nil _
  case cons g gs hi =>
    cases gs
    case nil => exact joinedTexts_singleton g ▸ stringText_ascii g
    case cons g' gs =>
      rw [joinedTexts_cons_cons]
      refine List.forall_mem_append.mpr ⟨stringText_ascii g, ?_⟩
      exact List.forall_mem_cons.mpr ⟨by decide, List.forall_mem_cons.mpr ⟨by decide, hi⟩⟩

-- A list of texts is written in ASCII.
theorem text_strings_ascii (gs : List String) :
    ∀ d ∈ (text (.arr (gs.map .str))).toList, d.toNat < 128 := by
  rw [text_strings]
  exact List.forall_mem_cons.mpr
    ⟨by decide, List.forall_mem_append.mpr
      ⟨joinedTexts_ascii gs, List.forall_mem_singleton.mpr (by decide)⟩⟩

end LabelPlaylists.Json
