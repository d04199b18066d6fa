import LabelPlaylists.Number.Power
import LabelPlaylists.Text.Quoted

namespace LabelPlaylists.Text

variable {a b x y : List Char} {base w m n : Nat}

-- A number in the given base, with zeros in front up to the given width.
def digitsIn (base w n : Nat) : List Char :=
  List.replicate (w - (Nat.toDigits base n).length) '0' ++ Nat.toDigits base n

theorem padded_toList (w n : Nat) : (padded w n).toList = digitsIn 10 w n := by
  simp [padded, digitsIn, Nat.repr]

theorem isDigit_of_mem_digitsIn {c : Char} (h : c ∈ digitsIn 10 w n) : c.isDigit := by
  rcases List.mem_append.mp h with h | h
  case inl => rw [(List.mem_replicate.mp h).right]; rfl
  case inr => exact Nat.isDigit_of_mem_toDigits (by decide) (by decide) h

theorem digitsIn_one (h : n < base) : digitsIn base 1 n = [n.digitChar] := by
  rw [digitsIn, Nat.toDigits_of_lt_base h]
  rfl

-- The last digit of a number stands behind the others.
theorem digitsIn_succ (hb : 1 < base) (w n : Nat) :
    digitsIn base (w + 2) n = digitsIn base (w + 1) (n / base) ++ [(n % base).digitChar] := by
  unfold digitsIn
  by_cases h : n < base
  case pos =>
    rw [Nat.toDigits_of_lt_base h, Nat.div_eq_of_lt h, Nat.mod_eq_of_lt h, Nat.toDigits_zero]
    simp [List.replicate_succ']
  case neg =>
    rw [Nat.toDigits_of_base_le hb (Nat.le_of_not_lt h), List.length_append, ← List.append_assoc]
    simp

theorem length_digitsIn (hb : 1 < base) (h : n < base ^ (w + 1)) :
    (digitsIn base (w + 1) n).length = w + 1 := by
  induction w generalizing n
  case zero =>
    rw [Nat.zero_add, Nat.pow_one] at h
    rw [digitsIn_one h]
    rfl
  case succ w hi =>
    rw [digitsIn_succ hb, List.length_append, hi (Nat.div_lt_of_lt_mul (Nat.mul_comm .. ▸ h))]
    rfl

-- Texts are compared character by character.
theorem compare_toList (s t : String) : compare s t = compareOfLessAndEq s.toList t.toList := by
  show compareOfLessAndEq s t = _
  simp only [compareOfLessAndEq, String.lt_iff, String.toList_inj]

theorem compare_cons (c d : Char) :
    compareOfLessAndEq (c :: x) (d :: y)
      = (compareOfLessAndEq c d).then (compareOfLessAndEq x y) := by
  simp only [compareOfLessAndEq, List.cons_lt_cons_iff, List.cons.injEq]
  by_cases hl : c < d
  case pos => simp [hl]
  case neg => by_cases he : c = d <;> simp [hl, he]

-- Of texts with beginnings of the same length the beginnings are compared first.
theorem compare_append (h : a.length = b.length) :
    compareOfLessAndEq (a ++ x) (b ++ y)
      = (compareOfLessAndEq a b).then (compareOfLessAndEq x y) := by
  induction a generalizing b
  case nil => rw [List.eq_nil_of_length_eq_zero h.symm]; rfl
  case cons c a hi =>
    cases b
    case nil => cases h
    case cons d b =>
      rw [List.cons_append, List.cons_append, compare_cons, compare_cons,
        hi (Nat.succ.inj h), Ordering.then_assoc]

theorem compare_div_mod (m n : Nat) :
    (compare (m / 10) (n / 10)).then (compare (m % 10) (n % 10)) = compare m n := by
  rcases Nat.lt_trichotomy (m / 10) (n / 10) with h | h | h
  · rw [Nat.compare_eq_lt.mpr h, Nat.compare_eq_lt.mpr (show m < n by omega)]
    rfl
  · rw [Nat.compare_eq_eq.mpr h]
    show compare (m % 10) (n % 10) = _
    rcases Nat.lt_trichotomy (m % 10) (n % 10) with h' | h' | h'
    · rw [Nat.compare_eq_lt.mpr h', Nat.compare_eq_lt.mpr (show m < n by omega)]
    · rw [Nat.compare_eq_eq.mpr h', Nat.compare_eq_eq.mpr (show m = n by omega)]
    · rw [Nat.compare_eq_gt.mpr h', Nat.compare_eq_gt.mpr (show n < m by omega)]
  · rw [Nat.compare_eq_gt.mpr h, Nat.compare_eq_gt.mpr (show n < m by omega)]
    rfl

-- Numbers of the same width are ordered as their digits are.
theorem compare_digitsIn (hm : m < 10 ^ (w + 1)) (hn : n < 10 ^ (w + 1)) :
    compareOfLessAndEq (digitsIn 10 (w + 1) m) (digitsIn 10 (w + 1) n) = compare m n := by
  have hd : ∀ m < 10, ∀ n < 10,
      compareOfLessAndEq [m.digitChar] [n.digitChar] = compare m n := by decide
  have hten : 1 < 10 := by decide
  induction w generalizing m n
  case zero =>
    rw [Nat.zero_add, Nat.pow_one] at hm hn
    rw [Nat.zero_add, digitsIn_one hm, digitsIn_one hn]
    exact hd m hm n hn
  case succ w hi =>
    have hm' : m / 10 < 10 ^ (w + 1) := Nat.div_lt_of_lt_mul (Nat.mul_comm .. ▸ hm)
    have hn' : n / 10 < 10 ^ (w + 1) := Nat.div_lt_of_lt_mul (Nat.mul_comm .. ▸ hn)
    rw [digitsIn_succ hten, digitsIn_succ hten,
      compare_append (by rw [length_digitsIn hten hm', length_digitsIn hten hn']), hi hm' hn',
      hd _ (Nat.mod_lt _ (by decide)) _ (Nat.mod_lt _ (by decide))]
    exact compare_div_mod m n

end LabelPlaylists.Text
