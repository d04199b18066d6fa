import LabelPlaylists.Proofs.Calendar.Moment

namespace LabelPlaylists

open Text

namespace Day

variable {d e : Day}

-- A day that its month has, in whatever year.
structure Exists (d : Day) : Prop where
  months : 1 ≤ d.month ∧ d.month ≤ 12
  days   : 1 ≤ d.day ∧ d.day ≤ monthLength (isLeap d.year) d.month

theorem IsProper.exists (h : d.IsProper) : d.Exists :=
  have ⟨_, _, h₁, h₂, h₃, h₄⟩ := h
  ⟨⟨h₁, h₂⟩, h₃, h₄⟩

theorem ofNumber_exists (n : Int) : (ofNumber n).Exists :=
  have ⟨_, h₁, h₂, h₃, h₄⟩ := ofNumber_spec n
  ⟨⟨h₁, h₂⟩, h₃, h₄⟩

/-! ## Numbers in the order of the days -/

theorem daysBeforeYear_succ (year : Int) :
    daysBeforeYear (year + 1) = daysBeforeYear year + if isLeap year then 366 else 365 := by
  simp only [daysBeforeYear, isLeap, Bool.and_eq_true, Bool.or_eq_true, decide_eq_true_eq]
  split <;> omega

theorem daysBeforeYear_mono {year later : Int} (h : year ≤ later) :
    daysBeforeYear year ≤ daysBeforeYear later := by
  simp only [daysBeforeYear]
  omega

-- A month is over before a later one begins.
theorem daysBeforeMonth_later : ∀ leap, ∀ month ≤ 12, ∀ later ≤ 12, 1 ≤ month → month < later →
    daysBeforeMonth leap month + monthLength leap month ≤ daysBeforeMonth leap later := by
  decide

theorem daysBeforeMonth_within : ∀ leap, ∀ month ≤ 12, 1 ≤ month →
    (daysBeforeMonth leap month + monthLength leap month : Int) ≤ if leap then 366 else 365 := by
  decide

-- The days of a year have numbers between those of the years around it.
theorem Exists.number_bounds (h : d.Exists) :
    daysBeforeYear d.year < d.number ∧ d.number ≤ daysBeforeYear (d.year + 1) := by
  have ⟨hm₁, hm⟩ := h.months
  have ⟨hd₁, hd⟩ := h.days
  have hw := daysBeforeMonth_within (isLeap d.year) d.month hm hm₁
  rw [daysBeforeYear_succ]
  unfold number
  constructor <;> omega

theorem number_lt_of_year (hd : d.Exists) (he : e.Exists) (h : d.year < e.year) : d.number < e.number :=
  calc d.number
    _ ≤ daysBeforeYear (d.year + 1) := hd.number_bounds.right
    _ ≤ daysBeforeYear e.year       := daysBeforeYear_mono h
    _ < e.number                    := he.number_bounds.left

theorem number_lt_of_month (hd : d.Exists) (he : e.Exists) (hy : d.year = e.year) (h : d.month < e.month) :
    d.number < e.number := by
  have hl := daysBeforeMonth_later (isLeap d.year) d.month hd.months.right e.month he.months.right
    hd.months.left h
  have := hd.days
  have := he.days
  unfold number
  rw [← hy]
  omega

-- Numbers are ordered as the days are.
theorem compare_number (hd : d.Exists) (he : e.Exists) : compare d.number e.number = d.order e := by
  unfold order
  rcases Int.lt_trichotomy d.year e.year with h | hy | h
  case inl =>
    rw [Int.compare_eq_lt.mpr h, Int.compare_eq_lt.mpr (number_lt_of_year hd he h)]
    rfl
  case inr.inr =>
    rw [Int.compare_eq_gt.mpr h, Int.compare_eq_gt.mpr (number_lt_of_year he hd h)]
    rfl
  case inr.inl =>
    rw [Int.compare_eq_eq.mpr hy]
    rcases Nat.lt_trichotomy d.month e.month with h | hm | h
    case inl =>
      rw [Nat.compare_eq_lt.mpr h, Int.compare_eq_lt.mpr (number_lt_of_month hd he hy h)]
      rfl
    case inr.inr =>
      rw [Nat.compare_eq_gt.mpr h, Int.compare_eq_gt.mpr (number_lt_of_month he hd hy.symm h)]
      rfl
    case inr.inl =>
      have hn (d' : Nat) : (⟨d.year, d.month, d'⟩ : Day).number
          = daysBeforeYear e.year + daysBeforeMonth (isLeap e.year) e.month + d' := by
        rw [number, hy, hm]
      have hd' : d.number = _ := hn d.day
      rw [Nat.compare_eq_eq.mpr hm, hd']
      show compare _ (daysBeforeYear e.year + daysBeforeMonth (isLeap e.year) e.month + e.day) = compare d.day e.day
      rcases Nat.lt_trichotomy d.day e.day with h | h | h
      · rw [Nat.compare_eq_lt.mpr h, Int.compare_eq_lt.mpr (by omega)]
      · rw [Nat.compare_eq_eq.mpr h, Int.compare_eq_eq.mpr (by omega)]
      · rw [Nat.compare_eq_gt.mpr h, Int.compare_eq_gt.mpr (by omega)]

theorem eq_of_order (h : d.order e = .eq) : d = e := by
  obtain ⟨hy, h⟩ := Ordering.then_eq_eq.mp h
  obtain ⟨hm, hd⟩ := Ordering.then_eq_eq.mp h
  cases d
  cases e
  simp_all

-- A day is found again by its number.
theorem ofNumber_number (h : d.Exists) : ofNumber d.number = d := by
  have he := ofNumber_exists d.number
  refine eq_of_order ?_
  rw [← compare_number he h, (ofNumber_spec d.number).left]
  exact Int.compare_eq_eq.mpr rfl

theorem IsProper.number_bounds (h : d.IsProper) : 1 ≤ d.number ∧ d.number ≤ 3652059 := by
  have hb := h.exists.number_bounds
  have h₁ : daysBeforeYear 1 ≤ daysBeforeYear d.year := daysBeforeYear_mono h.left
  have h₂ : daysBeforeYear (d.year + 1) ≤ daysBeforeYear 10000 := daysBeforeYear_mono (by have := h.right.left; omega)
  have : daysBeforeYear 1 = 0 := by decide
  have : daysBeforeYear 10000 = 3652059 := by decide
  omega

/-! ## Weeks -/

theorem number_newYear (year : Int) : (⟨year, 1, 1⟩ : Day).number = daysBeforeYear year + 1 := by
  have hm : daysBeforeMonth (isLeap year) 1 = 0 := by cases isLeap year <;> decide
  show daysBeforeYear year + (daysBeforeMonth (isLeap year) 1 : Int) + (1 : Nat) = _
  omega

-- The Thursday of the week of a day.
def thursday (d : Day) : Day := ofNumber (d.number - d.weekday + 3)

-- A week belongs to the year that has its Thursday.
def weekYear (d : Day) : Int := d.thursday.year

-- Which of the Thursdays of its year the Thursday of the week is.
def week (d : Day) : Nat := ((d.thursday.number - daysBeforeYear d.weekYear - 1) / 7 + 1).toNat

theorem IsProper.thursday (h : d.IsProper) : d.thursday.IsProper := by
  have hb := h.number_bounds
  refine ofNumber_isProper ?_ ?_ <;> unfold weekday <;> omega

theorem week_lt (d : Day) : d.week < 10 ^ 2 := by
  have hb := (ofNumber_exists (d.number - d.weekday + 3)).number_bounds
  rw [daysBeforeYear_succ] at hb
  unfold week weekYear thursday
  split at hb <;> omega

-- A day is found by its week and its place in the week.
theorem ofWeek?_week (h : d.IsProper) : ofWeek? d.weekYear d.week (d.weekday.toNat + 1) = some d := by
  have ht : d.thursday.number = d.number - d.weekday + 3 := (ofNumber_spec _).left
  have hb : daysBeforeYear d.weekYear < d.thursday.number ∧
      d.thursday.number ≤ daysBeforeYear (d.weekYear + 1) := (ofNumber_exists _).number_bounds
  have hd : d.weekday = (d.number + 6) % 7 := rfl
  have hw : d.week = ((d.thursday.number - daysBeforeYear d.weekYear - 1) / 7 + 1).toNat := rfl
  have hf : weekday ⟨d.weekYear, 1, 1⟩ = (daysBeforeYear d.weekYear + 1 + 6) % 7 := by
    rw [weekday, number_newYear]
  rw [daysBeforeYear_succ] at hb
  have hm : firstMonday d.weekYear + ((d.week : Int) - 1) * 7 + (((d.weekday.toNat + 1 : Nat) : Int) - 1)
      = d.number := by
    simp only [firstMonday, number_newYear, hf]
    split at hb <;> split <;> omega
  have hc : (1 ≤ d.week ∧ d.week ≤ 52 ∨ d.week = 53 ∧ hasWeek53 d.weekYear) ∧
      1 ≤ d.weekday.toNat + 1 ∧ d.weekday.toNat + 1 ≤ 7 := by
    simp only [hasWeek53, hf, Bool.or_eq_true, Bool.and_eq_true, decide_eq_true_eq]
    split at hb
    case isTrue hl  => simp only [hl, and_true]; omega
    case isFalse hl => simp only [hl]; omega
  unfold ofWeek?
  rw [if_pos hc, hm, ofNumber_number h.exists]

/-! ## The forms of a day -/

-- The ways of writing a day: by its month or by its week, with hyphens or without. A week alone stands
-- for its Monday.
inductive Written (d : Day) : String → Prop
  | date            : Written d (padded 4 d.year.toNat ++ "-" ++ padded 2 d.month ++ "-" ++ padded 2 d.day)
  | compactDate     : Written d (padded 4 d.year.toNat ++ padded 2 d.month ++ padded 2 d.day)
  | weekDate        :
    Written d (padded 4 d.weekYear.toNat ++ "-W" ++ padded 2 d.week ++ "-" ++ padded 1 (d.weekday.toNat + 1))
  | compactWeekDate :
    Written d (padded 4 d.weekYear.toNat ++ "W" ++ padded 2 d.week ++ padded 1 (d.weekday.toNat + 1))
  | week            : d.weekday = 0 → Written d (padded 4 d.weekYear.toNat ++ "-W" ++ padded 2 d.week)
  | compactWeek     : d.weekday = 0 → Written d (padded 4 d.weekYear.toNat ++ "W" ++ padded 2 d.week)

variable {s : String} {y m n w k : Nat}

-- A text of digits, hyphens and the letter of weeks is read as it stands.
theorem ofIso?_plain {text : List Char} {length : Nat} (ht : s.toList = text)
    (hs : ∀ c ∈ s.toList, c.isDigit ∨ c ∈ ['-', 'W']) (hl : text.length = length)
    (hn : length = 7 ∨ length = 8 ∨ length = 10) (h : ofOctets? length text = some d) (hd : d.IsProper) :
    ofIso? s = some d := by
  have ho : octets s = s.toList := octets_ascii fun c hc => by
    rcases hs c hc with h | h
    case inl => exact toNat_lt_of_isDigit h
    case inr =>
      simp only [List.mem_cons, List.not_mem_nil, or_false] at h
      rcases h with rfl | rfl <;> decide
  rw [ofIso?, ho, ht, hl, if_pos hn, h]
  simp [hd]

theorem ofOctets?_compact (length : Nat) (hy : y < 10 ^ 4) (hm : m < 10 ^ 2) (hn : n < 10 ^ 2) :
    ofOctets? length (digitsIn 10 4 y ++ (digitsIn 10 2 m ++ digitsIn 10 2 n)) = some ⟨y, m, n⟩ := by
  have ⟨a, b, hab, ha, _⟩ := digitsIn_two hm
  have hw : a ≠ 'W' := by rintro rfl; cases ha
  have hh : a ≠ '-' := by rintro rfl; cases ha
  have hm' : digits? 2 (a :: b :: digitsIn 10 2 n) = some (m, digitsIn 10 2 n) := by
    have := digits?_digitsIn hm (digitsIn 10 2 n)
    rwa [hab] at this
  have hn' : digits? 2 (digitsIn 10 2 n) = some (n, []) := by
    have := digits?_digitsIn hn []
    rwa [List.append_nil] at this
  simp [ofOctets?, digits?_digitsIn hy, hab, hw, hh, hm', hn']

theorem ofOctets?_weekDate (hy : y < 10 ^ 4) (hw : w < 10 ^ 2) (hk : k < 10 ^ 1) {length : Nat} (hl : 8 < length) :
    ofOctets? length (digitsIn 10 4 y ++ '-' :: 'W' :: (digitsIn 10 2 w ++ '-' :: digitsIn 10 1 k))
      = ofWeek? y w k := by
  have hk' := digits?_digitsIn hk []
  rw [List.append_nil] at hk'
  simp [ofOctets?, digits?_digitsIn hy, digits?_digitsIn hw, hk', hl]

theorem ofOctets?_compactWeekDate (hy : y < 10 ^ 4) (hw : w < 10 ^ 2) (hk : k < 10 ^ 1) {length : Nat}
    (hl : 7 < length) :
    ofOctets? length (digitsIn 10 4 y ++ 'W' :: (digitsIn 10 2 w ++ digitsIn 10 1 k)) = ofWeek? y w k := by
  have hk' := digits?_digitsIn hk []
  rw [List.append_nil] at hk'
  simp [ofOctets?, digits?_digitsIn hy, digits?_digitsIn hw, hk', hl]

theorem ofOctets?_week (hy : y < 10 ^ 4) (hw : w < 10 ^ 2) :
    ofOctets? 8 (digitsIn 10 4 y ++ '-' :: 'W' :: digitsIn 10 2 w) = ofWeek? y w 1 := by
  have hw' := digits?_digitsIn hw []
  rw [List.append_nil] at hw'
  simp [ofOctets?, digits?_digitsIn hy, hw']

theorem ofOctets?_compactWeek (hy : y < 10 ^ 4) (hw : w < 10 ^ 2) :
    ofOctets? 7 (digitsIn 10 4 y ++ 'W' :: digitsIn 10 2 w) = ofWeek? y w 1 := by
  have hw' := digits?_digitsIn hw []
  rw [List.append_nil] at hw'
  simp [ofOctets?, digits?_digitsIn hy, hw']

theorem Written.plain (h : d.Written s) : ∀ c ∈ s.toList, c.isDigit ∨ c ∈ ['-', 'W'] := by
  have hd {c : Char} {w n : Nat} (h : c ∈ digitsIn 10 w n) : c.isDigit := isDigit_of_mem_digitsIn h
  have h₁ : "-".toList = ['-'] := rfl
  have h₂ : "W".toList = ['W'] := rfl
  have h₃ : "-W".toList = ['-', 'W'] := rfl
  cases h <;> simp only [String.toList_append, padded_toList, h₁, h₂, h₃] <;> grind

-- Every way of writing a day is read as that day.
theorem ofIso?_of_written (hd : d.IsProper) (h : d.Written s) : ofIso? s = some d := by
  have hs := h.plain
  have hf := hd.fits
  have hw := week_lt d
  have hk : d.weekday.toNat + 1 < 10 ^ 1 := by unfold weekday; omega
  have hweek := ofWeek?_week hd
  obtain ⟨y, hy⟩ := Int.eq_ofNat_of_zero_le (Int.le_trans (by decide) hd.left)
  obtain ⟨z, hz⟩ := Int.eq_ofNat_of_zero_le (Int.le_trans (by decide) hd.thursday.left : 0 ≤ d.weekYear)
  have hy₄ : y < 10 ^ 4 := by have := hf.year; omega
  have hz₄ : z < 10 ^ 4 := by
    have : d.weekYear ≤ 9999 := hd.thursday.right.left
    omega
  have hm : d.weekday = 0 → ofWeek? z d.week 1 = some d := fun h => by rwa [hz, h] at hweek
  have hfields : (⟨y, d.month, d.day⟩ : Day) = d := by rw [← hy]
  have h₁ : "-".toList = ['-'] := rfl
  have h₂ : "W".toList = ['W'] := rfl
  have h₃ : "-W".toList = ['-', 'W'] := rfl
  have l₄ {n : Nat} (h : n < 10 ^ 4) : (digitsIn 10 4 n).length = 4 := length_digitsIn (by decide) h
  have l₂ {n : Nat} (h : n < 10 ^ 2) : (digitsIn 10 2 n).length = 2 := length_digitsIn (by decide) h
  have l₁ {n : Nat} (h : n < 10 ^ 1) : (digitsIn 10 1 n).length = 1 := length_digitsIn (by decide) h
  rw [hz] at hweek
  cases h <;> simp only [hy, hz, Int.toNat_natCast] at hs ⊢
  case date =>
    have ht : (padded 4 y ++ "-" ++ padded 2 d.month ++ "-" ++ padded 2 d.day).toList
        = StoredDay.fields y d.month d.day ++ [] := by simp [StoredDay.fields, padded_toList, h₁]
    refine ofIso?_plain ht hs ?_ (.inr (.inr rfl)) ?_ hd
    case refine_1 => simp [StoredDay.fields, l₄ hy₄, l₂ hf.month, l₂ hf.day]
    case refine_2 => rw [ofOctets?_fields hy₄ hf.month hf.day, hfields]
  case compactDate =>
    have ht : (padded 4 y ++ padded 2 d.month ++ padded 2 d.day).toList
        = digitsIn 10 4 y ++ (digitsIn 10 2 d.month ++ digitsIn 10 2 d.day) := by simp [padded_toList]
    refine ofIso?_plain ht hs ?_ (.inr (.inl rfl)) ?_ hd
    case refine_1 => simp [l₄ hy₄, l₂ hf.month, l₂ hf.day]
    case refine_2 => rw [ofOctets?_compact _ hy₄ hf.month hf.day, hfields]
  case weekDate =>
    have ht : (padded 4 z ++ "-W" ++ padded 2 d.week ++ "-" ++ padded 1 (d.weekday.toNat + 1)).toList
        = digitsIn 10 4 z
          ++ '-' :: 'W' :: (digitsIn 10 2 d.week ++ '-' :: digitsIn 10 1 (d.weekday.toNat + 1)) := by
      simp [padded_toList, h₁, h₃]
    refine ofIso?_plain ht hs ?_ (.inr (.inr rfl)) ?_ hd
    case refine_1 => simp [l₄ hz₄, l₂ hw, l₁ hk]
    case refine_2 => rw [ofOctets?_weekDate hz₄ hw hk (by decide), hweek]
  case compactWeekDate =>
    have ht : (padded 4 z ++ "W" ++ padded 2 d.week ++ padded 1 (d.weekday.toNat + 1)).toList
        = digitsIn 10 4 z ++ 'W' :: (digitsIn 10 2 d.week ++ digitsIn 10 1 (d.weekday.toNat + 1)) := by
      simp [padded_toList, h₂]
    refine ofIso?_plain ht hs ?_ (.inr (.inl rfl)) ?_ hd
    case refine_1 => simp [l₄ hz₄, l₂ hw, l₁ hk]
    case refine_2 => rw [ofOctets?_compactWeekDate hz₄ hw hk (by decide), hweek]
  case week h =>
    have ht : (padded 4 z ++ "-W" ++ padded 2 d.week).toList
        = digitsIn 10 4 z ++ '-' :: 'W' :: digitsIn 10 2 d.week := by simp [padded_toList, h₃]
    refine ofIso?_plain ht hs ?_ (.inr (.inl rfl)) ?_ hd
    case refine_1 => simp [l₄ hz₄, l₂ hw]
    case refine_2 => rw [ofOctets?_week hz₄ hw, hm h]
  case compactWeek h =>
    have ht : (padded 4 z ++ "W" ++ padded 2 d.week).toList
        = digitsIn 10 4 z ++ 'W' :: digitsIn 10 2 d.week := by simp [padded_toList, h₂]
    refine ofIso?_plain ht hs ?_ (.inl rfl) ?_ hd
    case refine_1 => simp [l₄ hz₄, l₂ hw]
    case refine_2 => rw [ofOctets?_compactWeek hz₄ hw, hm h]

end Day

/-! ## Days as the store reads them -/

namespace StoredDay

variable {w n low high y m d : Nat} {rest : List Char}

theorem field?_digitsIn (h : n < 10 ^ (w + 1)) (hn : low ≤ n ∧ n ≤ high) (rest : List Char) :
    field? (w + 1) low high (digitsIn 10 (w + 1) n ++ rest) = some (n, rest) := by
  have hl := length_digitsIn (by decide) h
  have ha : (digitsIn 10 (w + 1) n).all isAsciiDigit :=
    List.all_eq_true.mpr fun c hc => isAsciiDigit_of_isDigit (isDigit_of_mem_digitsIn hc)
  simp only [field?, List.take_left' hl, List.drop_left' hl, asciiValue_digitsIn h]
  rw [if_pos ⟨hl, ha, hn⟩]

theorem exists_digitsIn_cons (h : n < 10 ^ (w + 1)) :
    ∃ c l, digitsIn 10 (w + 1) n = c :: l ∧ c.isDigit := by
  have ⟨c, l, hc⟩ : ∃ c l, digitsIn 10 (w + 1) n = c :: l := by
    apply List.exists_cons_of_length_pos
    rw [length_digitsIn (by decide) h]
    exact Nat.succ_pos w
  exact ⟨c, l, hc, isDigit_of_mem_digitsIn (hc ▸ List.mem_cons_self)⟩

theorem mem_fields {c : Char} (h : c ∈ fields y m d) : c.isDigit ∨ c = '-' := by
  simp only [fields, List.mem_append, List.mem_cons] at h
  have hd {w n : Nat} (h : c ∈ digitsIn 10 w n) := isDigit_of_mem_digitsIn h
  grind

theorem toNat_of_mem_fields {c : Char} (h : c ∈ fields y m d) : c.toNat < 128 ∧ c.toNat ≠ 0 := by
  rcases mem_fields h with h | rfl
  case inl =>
    refine ⟨toNat_lt_of_isDigit h, fun h₀ => ?_⟩
    have hc : c = Char.ofNat 0 := h₀ ▸ (Char.ofNat_toNat c).symm
    subst hc
    cases h
  case inr => decide

theorem dayAndTime?_fields (hy : y < 10 ^ 4) (hm : 1 ≤ m ∧ m ≤ 12) (hd : 1 ≤ d ∧ d ≤ 31) :
    dayAndTime? (fields y m d) = some (⟨y, m, d⟩, none) := by
  obtain ⟨c, l, hc, hdigit⟩ : ∃ c l, digitsIn 10 4 y = c :: l ∧ c.isDigit := exists_digitsIn_cons hy
  have hs : c ≠ '-' := by rintro rfl; cases hdigit
  have hyear : field? 4 0 9999 (c :: (l ++ '-' :: (digitsIn 10 2 m ++ '-' :: digitsIn 10 2 d)))
      = some (y, '-' :: (digitsIn 10 2 m ++ '-' :: digitsIn 10 2 d)) := by
    rw [← List.cons_append, ← hc]
    exact field?_digitsIn hy (by omega) _
  have hmonth : field? 2 1 12 (digitsIn 10 2 m ++ '-' :: digitsIn 10 2 d) = some (m, '-' :: digitsIn 10 2 d) :=
    field?_digitsIn (by omega) hm _
  have hday : field? 2 1 31 (digitsIn 10 2 d) = some (d, []) := by
    have := field?_digitsIn (w := 1) (by omega) hd []
    rwa [List.append_nil] at this
  have ht : time? [] = none := by decide
  unfold dayAndTime? fields
  rw [hc, List.cons_append]
  simp only [List.cons.injEq, hs, false_and, imp_self, implies_true, hyear, hmonth, hday, ht, after?, ↓reduceIte,
    List.dropWhile_nil, Option.bind_eq_bind, Option.bind_some]
  rfl

-- The years that are written with four digits lie within the Julian times of days.
theorem julianMillis_bounds {d : Day} (hy : 0 ≤ d.year ∧ d.year ≤ 9999) (hm : 1 ≤ d.month ∧ d.month ≤ 12)
    (hd : 1 ≤ d.day ∧ d.day ≤ 31) : 0 ≤ julianMillis d ∧ julianMillis d ≤ lastMillis := by
  -- January and February count as months of the year before, which may be the year -1.
  have hx {y : Int} (hy : -1 ≤ y) : (36525 * (y + 4716)).tdiv 100 = 36525 * (y + 4716) / 100 :=
    Int.tdiv_eq_ediv_of_nonneg (by omega)
  have hz {m : Int} (hm : 0 ≤ m) : (306001 * (m + 1)).tdiv 10000 = 306001 * (m + 1) / 10000 :=
    Int.tdiv_eq_ediv_of_nonneg (by omega)
  have ha {y : Int} (hy : -1 ≤ y) : y.tdiv 100 = 0 ∧ y = -1 ∨ y.tdiv 100 = y / 100 ∧ 0 ≤ y := by
    by_cases h : 0 ≤ y
    case pos => exact .inr ⟨Int.tdiv_eq_ediv_of_nonneg h, h⟩
    case neg =>
      have hn : y = -1 := by omega
      exact .inl ⟨by rw [hn]; rfl, hn⟩
  have hb {y : Int} (hy : -1 ≤ y) : (y.tdiv 100).tdiv 4 = y.tdiv 100 / 4 :=
    Int.tdiv_eq_ediv_of_nonneg (by have := ha hy; omega)
  unfold julianMillis lastMillis millisPerDay
  by_cases h : d.month ≤ 2 <;> simp only [h, if_true, if_false]
  case pos =>
    have hy' : -1 ≤ d.year - 1 := by omega
    have := ha hy'
    rw [hx hy', hz (by omega), hb hy']
    omega
  case neg =>
    have hy' : -1 ≤ d.year := by omega
    have := ha hy'
    rw [hx hy', hz (by omega), hb hy']
    omega

-- A day of the years from 0 to 9999 is read as it is written.
theorem day?_dayText {d : Day} (hy : 0 ≤ d.year ∧ d.year ≤ 9999) (hd : d.Exists) : day? (dayText d) = some d := by
  have hm := hd.months
  have hl : ∀ leap, ∀ month ≤ 12, Day.monthLength leap month ≤ 31 := by decide
  have hday : 1 ≤ d.day ∧ d.day ≤ 31 := ⟨hd.days.left, Nat.le_trans hd.days.right (hl _ _ hm.right)⟩
  have ⟨h₀, h⟩ := julianMillis_bounds hy hm hday
  have ht : (dayText d).toList = fields d.year.natAbs d.month d.day := by
    rw [dayText_toList, if_neg (by omega), List.nil_append]
  have ho : octetsToNull (dayText d) = fields d.year.natAbs d.month d.day := by
    rw [octetsToNull, octets_ascii fun c hc => (toNat_of_mem_fields (ht ▸ hc)).left, ht]
    exact List.takeWhile_eq_self_iff.mpr fun c hc => decide_eq_true (toNat_of_mem_fields hc).right
  have hyear : ((d.year.natAbs : Nat) : Int) = d.year := by omega
  have hf : (⟨d.year.natAbs, d.month, d.day⟩ : Day) = d := by rw [hyear]
  unfold day? read?
  rw [ho, dayAndTime?_fields (by omega) hm hday, hf]
  dsimp only
  rw [if_neg (by omega)]
  rfl

end StoredDay

end LabelPlaylists
