import LabelPlaylists.Proofs.Text.Octets
import LabelPlaylists.Text.Utf8
import Mathlib.Data.List.Basic

namespace LabelPlaylists.Text.Utf8

variable {b t n : Nat} {tails : List Nat}

-- The octets of one character, as numbers.
def units (c : Char) : List Nat := (String.utf8EncodeChar c).map (·.toNat)

def unitsOf (s : List Char) : List Nat := s.flatMap units

theorem octets_toNat (s : String) : (octets s).map Char.toNat = unitsOf s.toList := by
  rw [octets_eq, List.map_flatMap]
  refine congrArg (List.flatMap · s.toList) (funext fun c => ?_)
  rw [charOctets, List.map_map]
  exact List.map_congr_left fun b _ => toNat_ofNat b.toNat_lt

-- The octets of a character by its number: seven bits in one, eleven in two, sixteen in three, or else four.
theorem units_eq (c : Char) :
    units c =
      if c.toNat < 0x80 then [c.toNat]
      else if c.toNat < 0x800 then [0xC0 + c.toNat / 64, 0x80 + c.toNat % 64]
      else if c.toNat < 0x10000 then
        [0xE0 + c.toNat / 4096, 0x80 + c.toNat / 64 % 64, 0x80 + c.toNat % 64]
      else [0xF0 + c.toNat / 262144, 0x80 + c.toNat / 4096 % 64, 0x80 + c.toNat / 64 % 64,
        0x80 + c.toNat % 64] := by
  have hv : c.val.toNat = c.toNat := rfl
  have hm : c.toNat < 0x110000 := by
    have := c.valid
    simp only [UInt32.isValidChar, Nat.isValidChar] at this
    omega
  unfold units String.utf8EncodeChar
  simp only [hv]
  by_cases h₁ : c.toNat < 0x80
  case pos =>
    rw [if_pos (by omega), if_pos h₁]
    simp only [List.map_cons, List.map_nil, UInt8.toNat_ofNat', List.cons.injEq, and_true]
    omega
  by_cases h₂ : c.toNat < 0x800
  case pos =>
    rw [if_neg (by omega), if_pos (by omega), if_neg h₁, if_pos h₂]
    simp only [List.map_cons, List.map_nil, UInt8.toNat_ofNat', List.cons.injEq, and_true]
    omega
  by_cases h₃ : c.toNat < 0x10000
  case pos =>
    rw [if_neg (by omega), if_neg (by omega), if_pos (by omega), if_neg h₁, if_neg h₂, if_pos h₃]
    simp only [List.map_cons, List.map_nil, UInt8.toNat_ofNat', List.cons.injEq, and_true]
    omega
  case neg =>
    rw [if_neg (by omega), if_neg (by omega), if_neg (by omega), if_neg h₁, if_neg h₂, if_neg h₃]
    simp only [List.map_cons, List.map_nil, UInt8.toNat_ofNat', List.cons.injEq, and_true]
    omega

theorem toNat_ofNat_of_isValidChar (h : n.isValidChar) : (Char.ofNat n).toNat = n := by
  rw [Char.ofNat, dif_pos h]
  rfl

theorem units_ne_nil (c : Char) : units c ≠ [] := by
  rw [units_eq]
  split <;> [skip; split <;> [skip; split]] <;> exact List.cons_ne_nil _ _

-- The first two octets of a character of so many octets.
def Starts (b t width : Nat) : Prop :=
  0x80 ≤ t ∧ t ≤ 0xBF ∧
    (width = 2 ∧ 0xC2 ≤ b ∧ b ≤ 0xDF ∨
      width = 3 ∧ 0xE0 ≤ b ∧ b ≤ 0xEF ∧ (b = 0xE0 → 0xA0 ≤ t) ∧ (b = 0xED → t ≤ 0x9F) ∨
      width = 4 ∧ 0xF0 ≤ b ∧ b ≤ 0xF4 ∧ (b = 0xF0 → 0x90 ≤ t) ∧ (b = 0xF4 → t ≤ 0x8F))

theorem starts_iff {width : Nat} :
    Starts b t width ↔ ∃ low high, lead? b = some (low, high, width) ∧ low ≤ t ∧ t ≤ high := by
  unfold Starts lead?
  (repeat' split) <;>
    simp only [Option.some.injEq, Prod.mk.injEq, reduceCtorEq, false_and, exists_false, iff_false] <;> try omega
  all_goals
    constructor
    case mp => exact fun h => ⟨_, _, ⟨rfl, rfl, by omega⟩, by omega, by omega⟩
    case mpr =>
      rintro ⟨_, _, ⟨rfl, rfl, rfl⟩, _, _⟩
      omega

theorem isTail_iff : isTail b ↔ 0x80 ≤ b ∧ b ≤ 0xBF := by
  simp [isTail]

-- What an octet and the tails behind it write.
def number (b : Nat) (tails : List Nat) : Nat :=
  tails.foldl (fun n t => n * 64 + t % 64)
    (if tails.length = 1 then b % 32 else if tails.length = 2 then b % 16 else b % 8)

theorem tails_of_length {k : Nat} {p : Nat → Bool} {more : List Nat}
    (h : k ≤ ((more.take k).takeWhile p).length) :
    ∃ behind, more = (more.take k).takeWhile p ++ behind ∧ ((more.take k).takeWhile p).length = k := by
  have hl := List.length_take_le k more
  have hp := List.takeWhile_prefix p (l := more.take k)
  have he := hp.eq_of_length_le (hl.trans h)
  rw [he] at h ⊢
  exact ⟨_, (List.take_append_drop k more).symm, Nat.le_antisymm hl h⟩

theorem step_starts (h : Starts b t (tails.length + 2)) (ht : ∀ x ∈ tails, isTail x) (more : List Nat) :
    step b (t :: (tails ++ more)) = .char (Char.ofNat (number b (t :: tails))) (tails.length + 2) := by
  have ⟨low, high, hl, h₁, h₂⟩ := starts_iff.mp h
  have hb : ¬b < 0x80 := by
    unfold Starts at h
    omega
  have hw : ((tails ++ more).take tails.length).takeWhile isTail = tails := by
    rw [List.take_left, List.takeWhile_eq_self_iff.mpr ht]
  rw [Utf8.step, if_neg hb, hl]
  simp only [if_neg (show ¬(t < low ∨ high < t) by omega), Nat.add_sub_cancel, hw, Nat.lt_irrefl, if_false]
  simp [number]

theorem units_starts (h : Starts b t (tails.length + 2)) (ht : ∀ x ∈ tails, isTail x) :
    units (Char.ofNat (number b (t :: tails))) = b :: t :: tails := by
  simp only [isTail_iff] at ht
  obtain ⟨n, hn⟩ : ∃ n, number b (t :: tails) = n := ⟨_, rfl⟩
  obtain ⟨_, _, h | h | h⟩ := h
  case inl =>
    obtain rfl : tails = [] := List.eq_nil_of_length_eq_zero (by omega)
    have : n = (b % 32) * 64 + t % 64 := hn ▸ rfl
    have hv : (Char.ofNat n).toNat = n := toNat_ofNat_of_isValidChar (.inl (by omega))
    rw [hn, units_eq, hv, if_neg (by omega), if_pos (by omega)]
    simp only [List.cons.injEq, and_true]
    omega
  case inr.inl =>
    obtain ⟨u, rfl⟩ : ∃ u, tails = [u] := List.length_eq_one_iff.mp (by omega)
    have hu := ht u (List.mem_singleton_self u)
    have : n = ((b % 16) * 64 + t % 64) * 64 + u % 64 := hn ▸ rfl
    have hv : (Char.ofNat n).toNat = n := toNat_ofNat_of_isValidChar (by unfold Nat.isValidChar; omega)
    rw [hn, units_eq, hv, if_neg (by omega), if_neg (by omega), if_pos (by omega)]
    simp only [List.cons.injEq, and_true]
    omega
  case inr.inr =>
    obtain ⟨u, v, rfl⟩ : ∃ u v, tails = [u, v] := List.length_eq_two.mp (by omega)
    have hu := ht u (by simp)
    have hw := ht v (by simp)
    have : n = (((b % 8) * 64 + t % 64) * 64 + u % 64) * 64 + v % 64 := hn ▸ rfl
    have hv : (Char.ofNat n).toNat = n := toNat_ofNat_of_isValidChar (by unfold Nat.isValidChar; omega)
    rw [hn, units_eq, hv, if_neg (by omega), if_neg (by omega), if_neg (by omega)]
    simp only [List.cons.injEq, and_true]
    omega

-- A character is one of the first 128, or it is written with tails.
theorem units_cases (c : Char) :
    c.toNat < 0x80 ∧ units c = [c.toNat] ∨
      ∃ b t tails, units c = b :: t :: tails ∧ Starts b t (tails.length + 2) ∧ ∀ x ∈ tails, isTail x := by
  have hm : c.toNat < 0xD800 ∨ 0xE000 ≤ c.toNat ∧ c.toNat < 0x110000 := by
    have := c.valid
    simp only [UInt32.isValidChar, Nat.isValidChar] at this
    have hv : c.val.toNat = c.toNat := rfl
    omega
  rw [units_eq]
  split <;> [skip; split <;> [skip; split]]
  case isTrue h => exact .inl ⟨h, rfl⟩
  all_goals
    refine .inr ⟨_, _, _, rfl, ?_, ?_⟩
    case refine_1 =>
      simp only [Starts, List.length_cons, List.length_nil, Nat.zero_add, Nat.reduceAdd, Nat.reduceEqDiff, false_and,
        true_and, false_or, or_false]
      omega
    case refine_2 =>
      simp only [isTail_iff, List.mem_cons, List.not_mem_nil, or_false, forall_eq_or_imp, forall_eq, false_imp_iff,
        implies_true]
      try omega

theorem units_injective {c d : Char} (h : units c = units d) : c = d := by
  have ho : octets (String.ofList [c]) = octets (String.ofList [d]) := by
    have hi (a b : UInt8) (he : a.toNat = b.toNat) : a = b := UInt8.toNat_inj.mp he
    simp only [octets_eq, String.toList_ofList, List.flatMap_singleton, charOctets, (List.map_inj_right hi).mp h]
  exact (List.cons.inj (String.ofList_injective (octets_injective ho))).left

-- What starts with a character starts with one of the first 128, or with two octets and their tails.
theorem of_step_eq_char {rest : List Nat} {c : Char} {width : Nat} (h : step b rest = .char c width) :
    b < 0x80 ∨ ∃ t tails behind, rest = t :: (tails ++ behind) ∧ Starts b t (tails.length + 2) ∧
      ∀ x ∈ tails, isTail x := by
  rw [step] at h
  split at h
  case isTrue hb => exact .inl hb
  case isFalse =>
    cases hl : lead? b with
    | none => simp only [hl, reduceCtorEq] at h
    | some l =>
    obtain ⟨low, high, n⟩ := l
    cases rest with
    | nil => simp only [hl, reduceCtorEq] at h
    | cons t more =>
    simp only [hl] at h
    split at h
    case isTrue => cases h
    case isFalse ht =>
    split at h
    case isTrue => cases h
    case isFalse hn =>
    have ⟨behind, hm, hk⟩ := tails_of_length (Nat.le_of_not_lt hn)
    have hs : Starts b t n := starts_iff.mpr ⟨low, high, hl, by omega⟩
    have hw : n = n - 2 + 2 := by
      unfold Starts at hs
      omega
    exact .inr ⟨t, _, behind, congrArg (t :: ·) hm, by rwa [hk, ← hw], fun x => List.mem_takeWhile_imp⟩

-- Octets start with a character if and only if they are its octets and then others.
theorem step_eq_char_iff {rest : List Nat} {c : Char} {width : Nat} :
    step b rest = .char c width ↔ ∃ more, b :: rest = units c ++ more ∧ width = (units c).length := by
  constructor
  case mp =>
    intro h
    rcases of_step_eq_char h with hb | ⟨t, tails, behind, rfl, hs, ht⟩
    case inl =>
      rw [step, if_pos hb] at h
      cases h
      have hu : units (Char.ofNat b) = [b] := by
        rw [units_eq, toNat_ofNat (by omega), if_pos hb]
      exact ⟨rest, by rw [hu]; rfl, by rw [hu]; rfl⟩
    case inr =>
      rw [step_starts hs ht] at h
      cases h
      rw [units_starts hs ht]
      exact ⟨behind, rfl, rfl⟩
  case mpr =>
    intro ⟨more, he, hw⟩
    rcases units_cases c with ⟨hc, hu⟩ | ⟨b', t, tails, hu, hs, ht⟩
    case inl =>
      rw [hu] at he hw
      cases he
      rw [step, if_pos hc, Char.ofNat_toNat, hw]
      rfl
    case inr =>
      have hn : Char.ofNat (number b' (t :: tails)) = c := units_injective ((units_starts hs ht).trans hu.symm)
      rw [hu] at he hw
      cases he
      rw [List.append_eq, List.cons_append, step_starts hs ht, hw, hn]
      rfl

theorem replacing_skip (skip : Nat) (bs : List Nat) : replacing skip bs = replacing 0 (bs.drop skip) := by
  induction bs generalizing skip
  case nil => cases skip <;> rfl
  case cons b rest hi =>
    cases skip
    case zero => rfl
    case succ => exact hi _

theorem strict?_skip (skip : Nat) (bs : List Nat) : strict? skip bs = strict? 0 (bs.drop skip) := by
  induction bs generalizing skip
  case nil => cases skip <;> rfl
  case cons b rest hi =>
    cases skip
    case zero => rfl
    case succ => exact hi _

theorem exists_step (c : Char) (more : List Nat) :
    ∃ b tail, units c = b :: tail ∧ step b (tail ++ more) = .char c (tail.length + 1) := by
  obtain ⟨b, tail, hu⟩ := List.exists_cons_of_ne_nil (units_ne_nil c)
  exact ⟨b, tail, hu, step_eq_char_iff.mpr ⟨more, by rw [hu]; rfl, by rw [hu]; rfl⟩⟩

-- The octets of a text are read as this text.
theorem replacing_unitsOf (s : List Char) : replacing 0 (unitsOf s) = s := by
  induction s
  case nil => rfl
  case cons c s hi =>
    have ⟨b, tail, hu, hs⟩ := exists_step c (unitsOf s)
    show replacing 0 (units c ++ unitsOf s) = _
    rw [hu, List.cons_append, replacing, hs]
    simp only [Nat.add_sub_cancel, replacing_skip tail.length, List.drop_left, hi]

-- Octets are read strictly as a text if and only if they are its octets.
theorem strict?_eq_some_iff {bs : List Nat} {s : List Char} : strict? 0 bs = some s ↔ bs = unitsOf s := by
  induction s generalizing bs
  case nil =>
    cases bs
    case nil => exact ⟨fun _ => rfl, fun _ => rfl⟩
    case cons b rest =>
      refine ⟨fun h => ?_, nofun⟩
      rw [strict?] at h
      cases hs : step b rest <;> simp [hs] at h
  case cons c s hi =>
    constructor
    case mp =>
      intro h
      cases bs
      case nil => cases h
      case cons b rest =>
        rw [strict?] at h
        cases hs : step b rest <;> simp only [hs, reduceCtorEq, Option.map_eq_some_iff] at h
        obtain ⟨_, h, he⟩ := h
        cases he
        obtain ⟨more, hb, rfl⟩ := step_eq_char_iff.mp hs
        obtain ⟨b', tail, hu⟩ := List.exists_cons_of_ne_nil (units_ne_nil c)
        rw [hu, List.cons_append, List.cons.injEq] at hb
        rw [strict?_skip, hi, hu, hb.right, List.length_cons, Nat.add_sub_cancel, List.drop_left] at h
        rw [hb.left, hb.right, ← List.cons_append, ← hu, h]
        rfl
    case mpr =>
      rintro rfl
      have ⟨b, tail, hu, hs⟩ := exists_step c (unitsOf s)
      show strict? 0 (units c ++ unitsOf s) = _
      rw [hu, List.cons_append, strict?, hs]
      simp only [Nat.add_sub_cancel, strict?_skip tail.length, List.drop_left, hi.mpr, Option.map_some]

end LabelPlaylists.Text.Utf8
