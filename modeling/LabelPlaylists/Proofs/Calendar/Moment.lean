import Mathlib.Data.List.Basic
import LabelPlaylists.Account.Session
import LabelPlaylists.Proofs.Calendar.Stored
import LabelPlaylists.Proofs.Text.Octets

namespace LabelPlaylists

namespace Day

-- Of the first 365 days of a year each has its month and its day of the month.
theorem monthAndDay_monthLengths : ∀ leap : Bool, ∀ n < 365,
    let (month, day) := monthAndDay 1 (monthLengths leap) n
    daysBeforeMonth leap month + day = n + 1 ∧ 1 ≤ month ∧ month ≤ 12 ∧ 1 ≤ day ∧
      day ≤ monthLength leap month := by
  decide +kernel

-- The days before a year, by the cycles of 400, 100, 4 and 1 years that are over.
theorem daysBeforeYear_cycles {a b c d : Int} (hb : 0 ≤ b ∧ b ≤ 3) (hc : 0 ≤ c ∧ c ≤ 24)
    (hd : 0 ≤ d ∧ d ≤ 3) :
    daysBeforeYear (400 * a + 100 * b + 4 * c + d + 1)
      = 146097 * a + 36524 * b + 1461 * c + 365 * d := by
  have h₄ : (400 * a + 100 * b + 4 * c + d + 1 - 1) / 4 = 100 * a + 25 * b + c := by omega
  have h₁₀₀ : (400 * a + 100 * b + 4 * c + d + 1 - 1) / 100 = 4 * a + b := by omega
  have h₄₀₀ : (400 * a + 100 * b + 4 * c + d + 1 - 1) / 400 = a := by omega
  simp only [daysBeforeYear, h₄, h₁₀₀, h₄₀₀]
  omega

-- The last day of a leap year is its 366th.
theorem number_lastDay {year : Int} (h : isLeap year) :
    (⟨year, 12, 31⟩ : Day).number = daysBeforeYear year + 366 := by
  have hm : daysBeforeMonth true 12 = 335 := by decide
  simp only [number, h, hm]
  omega

-- A day that a number stands for has that number, and its month has it.
theorem ofNumber_spec (n : Int) :
    (ofNumber n).number = n ∧ 1 ≤ (ofNumber n).month ∧ (ofNumber n).month ≤ 12 ∧
      1 ≤ (ofNumber n).day ∧
      (ofNumber n).day ≤ monthLength (isLeap (ofNumber n).year) (ofNumber n).month := by
  unfold ofNumber
  extract_lets n₀ n400 r400 n100 r100 n4 r4 n1 r1 year
  have hr : 0 ≤ r1 ∧ r1 < 365 := by omega
  have hn : n₀ = 146097 * n400 + 36524 * n100 + 1461 * n4 + 365 * n1 + r1 := by omega
  have hc : 0 ≤ n4 ∧ n4 ≤ 24 := by omega
  split
  case isTrue h =>
    -- The 366th day of a leap year closes a cycle of four years or one of 400 years.
    have ⟨hl, hd⟩ : isLeap (year - 1) ∧ daysBeforeYear (year - 1) + 365 = n₀ := by
      by_cases h100 : n100 = 4
      case pos =>
        have hy : year - 1 = 400 * n400 + 100 * 3 + 4 * 24 + 3 + 1 := by omega
        rw [hy, daysBeforeYear_cycles (by decide) (by decide) (by decide)]
        simp only [isLeap, Bool.and_eq_true, Bool.or_eq_true, decide_eq_true_eq]
        omega
      case neg =>
        have h1 : n1 = 4 := by omega
        have h4 : n4 ≤ 23 := by omega
        have hy : year - 1 = 400 * n400 + 100 * n100 + 4 * n4 + 3 + 1 := by omega
        rw [hy, daysBeforeYear_cycles (by omega) hc (by decide)]
        simp only [isLeap, Bool.and_eq_true, Bool.or_eq_true, decide_eq_true_eq]
        omega
    have hm : monthLength true 12 = 31 := by decide
    refine ⟨?_, ?_⟩
    · rw [number_lastDay hl]
      omega
    · rw [hl, hm]
      dsimp only
      decide
  case isFalse h =>
    have hm := monthAndDay_monthLengths (isLeap year) r1.toNat (by omega)
    generalize monthAndDay 1 (monthLengths (isLeap year)) r1.toNat = found at hm ⊢
    obtain ⟨month, day⟩ := found
    have ⟨hd, hm⟩ := hm
    refine ⟨?_, hm⟩
    have hy : daysBeforeYear year = n₀ - r1 := by
      rw [daysBeforeYear_cycles (by omega) hc (by omega), hn]
      omega
    simp only [number, hy]
    omega

-- The numbers of the days of the years 1 to 9999.
theorem ofNumber_isProper {n : Int} (h₁ : 1 ≤ n) (h : n ≤ 3652059) : (ofNumber n).IsProper := by
  have ⟨_, hm⟩ := ofNumber_spec n
  suffices hy : 1 ≤ (ofNumber n).year ∧ (ofNumber n).year ≤ 9999 from ⟨hy.left, hy.right, hm⟩
  unfold ofNumber
  extract_lets n₀ n400 r400 n100 r100 n4 r4 n1 r1 year
  split <;> dsimp only <;> omega

end Day

namespace Text

variable {w n : Nat} {rest : List Char}

theorem octets_ascii {s : String} (h : ∀ c ∈ s.toList, c.toNat < 128) : octets s = s.toList := by
  rw [octets_eq, List.flatMap_congr fun c hc => charOctets_ascii (h c hc)]
  exact List.flatMap_singleton' _

theorem isAsciiDigit_of_isDigit {c : Char} (h : c.isDigit) : isAsciiDigit c := by
  simpa [Char.isDigit, isAsciiDigit, Char.le_def] using h

theorem asciiValue_append (a b : List Char) :
    asciiValue (a ++ b) = b.foldl (fun n c => 10 * n + (c.toNat - 48)) (asciiValue a) :=
  List.foldl_append

-- Digits are read as the number they are written for.
theorem asciiValue_digitsIn (h : n < 10 ^ (w + 1)) : asciiValue (digitsIn 10 (w + 1) n) = n := by
  have hd : ∀ n < 10, n.digitChar.toNat - 48 = n := by decide
  induction w generalizing n
  case zero =>
    rw [Nat.zero_add, Nat.pow_one] at h
    rw [Nat.zero_add, digitsIn_one h]
    simp [asciiValue, hd n h]
  case succ w hi =>
    rw [digitsIn_succ (by decide), asciiValue_append, hi (Nat.div_lt_of_lt_mul (Nat.mul_comm .. ▸ h))]
    simp only [List.foldl_cons, List.foldl_nil, hd (n % 10) (Nat.mod_lt _ (by decide))]
    exact Nat.div_add_mod n 10

theorem digits?_digitsIn (h : n < 10 ^ (w + 1)) (rest : List Char) :
    Day.digits? (w + 1) (digitsIn 10 (w + 1) n ++ rest) = some (n, rest) := by
  have hl := length_digitsIn (by decide) h
  have ha : (digitsIn 10 (w + 1) n).all isAsciiDigit :=
    List.all_eq_true.mpr fun c hc => isAsciiDigit_of_isDigit (isDigit_of_mem_digitsIn hc)
  simp only [Day.digits?, List.take_left' hl, List.drop_left' hl]
  rw [if_pos ⟨hl, ha⟩, asciiValue_digitsIn h]

theorem toNat_lt_of_isDigit {c : Char} (h : c.isDigit) : c.toNat < 128 := by
  simp only [Char.isDigit, Bool.and_eq_true, decide_eq_true_eq, UInt32.le_iff_toNat_le] at h
  exact Nat.lt_of_le_of_lt h.right (by decide)

-- Two digits, neither of which is mistaken for a letter or a sign.
theorem digitsIn_two (h : n < 100) :
    ∃ c d, digitsIn 10 2 n = [c, d] ∧ c.isDigit ∧ d.isDigit := by
  have hl : (digitsIn 10 2 n).length = 2 := length_digitsIn (by decide) h
  have ⟨c, d, hc⟩ := List.length_eq_two.mp hl
  exact ⟨c, d, hc, isDigit_of_mem_digitsIn (hc ▸ List.mem_cons_self),
    isDigit_of_mem_digitsIn (hc ▸ List.mem_cons_of_mem _ List.mem_cons_self)⟩

end Text

open Text

namespace Day

open StoredDay (fields)

variable {y m d : Nat} {rest : List Char}

theorem ofOctets?_fields (hy : y < 10 ^ 4) (hm : m < 10 ^ 2) (hd : d < 10 ^ 2) (length : Nat) :
    ofOctets? length (fields y m d ++ rest) = some ⟨y, m, d⟩ := by
  have ⟨a, b, hab, ha, _⟩ := digitsIn_two hm
  have hw : a ≠ 'W' := by rintro rfl; cases ha
  have hm' : digits? 2 (a :: b :: '-' :: (digitsIn 10 2 d ++ rest))
      = some (m, '-' :: (digitsIn 10 2 d ++ rest)) := by
    have := digits?_digitsIn hm ('-' :: (digitsIn 10 2 d ++ rest))
    rwa [hab] at this
  simp only [ofOctets?, fields, List.append_assoc, List.cons_append, digits?_digitsIn hy,
    Option.bind_eq_bind, Option.bind_some, hab, List.nil_append]
  split
  case h_1 he => exact (hw (List.cons.inj he).left).elim
  case h_2 =>
    simp only [hm', digits?_digitsIn hd, Option.bind_some]

end Day

namespace Moment

open StoredDay (fields)

variable {n y m d : Nat} {c : Char} {rest : List Char} {atEnd : Bool} {colons : Option Bool}
  {read : List Nat} {left : Nat}

-- A day of ten characters with a time behind it.
theorem separatorAt?_fields (hy : y < 10 ^ 4) (hm : m < 10 ^ 2) (hd : d < 10 ^ 2) :
    separatorAt? (fields y m d ++ c :: rest) = some 10 := by
  have ⟨a, b, hab, ha, _⟩ := digitsIn_two hm
  have ⟨e, f, hef, _⟩ := digitsIn_two hd
  have hw : a ≠ 'W' := by rintro rfl; cases ha
  have hl : (digitsIn 10 4 y).length = 4 := length_digitsIn (by decide) hy
  have ⟨p, q, r, t, hp⟩ := List.length_eq_four.mp hl
  simp [separatorAt?, fields, hab, hef, hp, hw]

theorem drop_fields (hy : y < 10 ^ 4) (hm : m < 10 ^ 2) (hd : d < 10 ^ 2) :
    (fields y m d ++ rest).drop 10 = rest := by
  refine List.drop_left' ?_
  simp only [fields, List.length_append, List.length_cons]
  rw [length_digitsIn (by decide) hy, length_digitsIn (by decide) hm, length_digitsIn (by decide) hd]

-- A field of a time with a colon behind it and more to come.
theorem fields?_colon (hn : n < 10 ^ 2) (hc : colons.getD true = true) :
    fields? atEnd colons read (left + 1) (digitsIn 10 2 n ++ ':' :: c :: rest)
      = fields? atEnd true (read ++ [n]) left (c :: rest) := by
  simp only [fields?, digits?_digitsIn hn, Option.bind_eq_bind, Option.bind_some, decide_true, hc,
    and_self, if_true]

theorem fields?_last (hn : n < 10 ^ 2) :
    fields? atEnd colons read (left + 1) (digitsIn 10 2 n) = some (read ++ [n], 0, atEnd) := by
  have hd := digits?_digitsIn hn []
  rw [List.append_nil] at hd
  simp only [fields?, hd, Option.bind_eq_bind, Option.bind_some]

theorem fraction?_digitsIn (hn : n < 10 ^ 6) (atEnd : Bool) :
    fraction? atEnd (digitsIn 10 6 n) = some (n, atEnd) := by
  have hd := digits?_digitsIn hn []
  have hl : (digitsIn 10 6 n).length = 6 := length_digitsIn (by decide) hn
  rw [List.append_nil] at hd
  simp [fraction?, hl, hd]

theorem fields?_fraction (hn : n < 10 ^ 2) {micros : Nat} (hs : micros < 10 ^ 6) :
    fields? atEnd (some true) read (left + 1) (digitsIn 10 2 n ++ '.' :: digitsIn 10 6 micros)
      = some (read ++ [n], micros, atEnd) := by
  have ⟨e, more, he⟩ : ∃ e more, digitsIn 10 6 micros = e :: more := by
    apply List.exists_cons_of_length_pos
    rw [length_digitsIn (by decide) hs]
    decide
  have hf := fraction?_digitsIn hs atEnd
  rw [he] at hf ⊢
  simp [fields?, digits?_digitsIn hn, hf]

-- Hours, minutes and seconds are read where nothing or a fraction follows them.
theorem clock?_fields {hours minutes seconds micros : Nat} {last : List Char}
    (hh : hours < 10 ^ 2) (hm : minutes < 10 ^ 2)
    (hl : fields? atEnd (some true) [hours, minutes] 1 last = some ([hours, minutes, seconds], micros, atEnd))
    (hn : last ≠ []) :
    clock? atEnd (digitsIn 10 2 hours ++ ':' :: (digitsIn 10 2 minutes ++ ':' :: last))
      = some ⟨hours, minutes, seconds, micros, atEnd⟩ := by
  have ⟨c, more, hc⟩ := List.exists_cons_of_ne_nil hn
  have ⟨a, b, hab, _⟩ := digitsIn_two hm
  have h₁ : fields? atEnd none [] 3 (digitsIn 10 2 hours ++ ':' :: a :: b :: ':' :: last)
      = fields? atEnd (some true) [hours] 2 (a :: b :: ':' :: last) := fields?_colon hh rfl
  have h₂ : fields? atEnd (some true) [hours] 2 (digitsIn 10 2 minutes ++ ':' :: c :: more)
      = fields? atEnd (some true) [hours, minutes] 1 (c :: more) := fields?_colon hm rfl
  rw [← hc, hab] at h₂
  rw [hab, clock?]
  show Option.map _ (fields? atEnd none [] 3 (digitsIn 10 2 hours ++ ':' :: a :: b :: ':' :: last)) = _
  rw [h₁]
  show Option.map _ (fields? atEnd (some true) [hours] 2 ([a, b] ++ ':' :: last)) = _
  rw [h₂, hl]
  rfl

-- A time of day as it is written, up to its zone.
theorem clock?_clockText {micros : Nat} (h : micros < 86400000000) :
    clock? atEnd (clockText true micros).toList = some
      ⟨micros / 1000000 / 3600, micros / 1000000 / 60 % 60, micros / 1000000 % 60, micros % 1000000,
        atEnd⟩ := by
  have hc : ":".toList = [':'] := rfl
  have hp : ".".toList = ['.'] := rfl
  have hs : micros / 1000000 % 60 < 10 ^ 2 := by omega
  have ht : (clockText true micros).toList
      = digitsIn 10 2 (micros / 1000000 / 3600) ++ ':' ::
        (digitsIn 10 2 (micros / 1000000 / 60 % 60) ++ ':' ::
          (digitsIn 10 2 (micros / 1000000 % 60) ++
            if micros % 1000000 ≠ 0 then '.' :: digitsIn 10 6 (micros % 1000000) else [])) := by
    simp only [clockText, true_or, if_true, String.toList_append, padded_toList, hc,
      List.append_assoc, List.cons_append, List.nil_append, apply_ite String.toList, hp]
    rfl
  rw [ht]
  refine clock?_fields (by omega) (by omega) ?_ ?_
  case refine_1 =>
    split
    case isTrue => exact fields?_fraction hs (Nat.mod_lt _ (by decide))
    case isFalse hz =>
      rw [List.append_nil, Decidable.not_not.mp hz]
      exact fields?_last hs
  case refine_2 =>
    have ⟨a, b, hab, _⟩ := digitsIn_two hs
    simp [hab]

-- No sign stands in a time of day.
theorem mem_clockText {micros : Nat} {withSeconds : Bool} (h : c ∈ (clockText withSeconds micros).toList) :
    c.isDigit ∨ c = ':' ∨ c = '.' := by
  have hc : ":".toList = [':'] := rfl
  have hp : ".".toList = ['.'] := rfl
  have he : "".toList = [] := rfl
  simp only [clockText, String.toList_append, padded_toList, hc, apply_ite String.toList, hp, he,
    List.mem_append, List.mem_singleton] at h
  rcases h with (((h | h) | h) | h) | h
  · exact .inl (isDigit_of_mem_digitsIn h)
  · exact .inr (.inl h)
  · exact .inl (isDigit_of_mem_digitsIn h)
  · split at h
    case isTrue =>
      rcases List.mem_append.mp h with h | h
      · exact .inr (.inl (List.mem_singleton.mp h))
      · exact .inl (isDigit_of_mem_digitsIn h)
    case isFalse => cases h
  · split at h
    case isTrue =>
      rcases List.mem_append.mp h with h | h
      · exact .inr (.inr (List.mem_singleton.mp h))
      · exact .inl (isDigit_of_mem_digitsIn h)
    case isFalse => cases h

theorem zoneText_utc : (zoneText (some 0)).toList = ['+', '0', '0', ':', '0', '0'] := by decide +kernel

-- A time of day in UTC is read as it was before it was written.
theorem time?_clockText {micros : Nat} (h : micros < 86400000000) :
    time? ((clockText true micros).toList ++ (zoneText (some 0)).toList)
      = some (Int.ofNat micros, some 0) := by
  have hs : ∀ c ∈ (clockText true micros).toList, (!(c = '+' || c = '-' || c = 'Z')) = true := by
    intro c hc
    rcases mem_clockText hc with h | h | h
    · simp only [Bool.not_eq_true', Bool.or_eq_false_iff, decide_eq_false_iff_not]
      refine ⟨⟨?_, ?_⟩, ?_⟩ <;> rintro rfl <;> cases h
    · rw [h]; decide
    · rw [h]; decide
  have hz : zone? false ['0', '0', ':', '0', '0'] = some 0 := by decide +kernel
  have hc : Clock.seconds ⟨micros / 1000000 / 3600, micros / 1000000 / 60 % 60, micros / 1000000 % 60,
      micros % 1000000, false⟩ = micros / 1000000 := by
    simp only [Clock.seconds]
    omega
  simp only [time?, zoneText_utc, List.takeWhile_append_of_pos hs, List.dropWhile_append_of_pos hs]
  simp [clock?_clockText h, hz, hc, microsPerSecond]
  omega

theorem InRange.day_isProper {t : Moment} (h : t.InRange) : t.day.IsProper := by
  have hm : microsPerDay = 86400000000 := rfl
  have h₁ : t.local' < 3652059 * 86400000000 := h.right
  refine Day.ofNumber_isProper ?_ ?_ <;> rw [hm] <;> have := h.left <;> omega

-- The day and the time of day make up the moment.
theorem ofDay_day {t : Moment} (micros : Int) (hm : micros = t.local' % microsPerDay) :
    ofDay t.day micros t.zone = t := by
  have hd : t.day.number = t.local' / microsPerDay + 1 := (Day.ofNumber_spec _).left
  have hl : (t.local' / microsPerDay + 1 - 1) * microsPerDay + t.local' % microsPerDay = t.local' := by
    rw [Int.add_sub_cancel, Int.mul_comm, Int.mul_ediv_add_emod]
  rw [ofDay, hd, hm, hl]

theorem text_toList {t : Moment} (hz : t.zone = some 0) :
    t.text.toList = fields t.day.year.toNat t.day.month t.day.day ++ 'T' ::
      ((clockText true (t.local' % microsPerDay).toNat).toList ++ (zoneText (some 0)).toList) := by
  have hT : "T".toList = ['T'] := rfl
  simp only [text, textWith, hz, String.toList_append, StoredDay.text_toList, hT, List.append_assoc,
    List.cons_append, List.nil_append]

theorem text_ascii {t : Moment} (hz : t.zone = some 0) (h : c ∈ t.text.toList) : c.toNat < 128 := by
  have hs : ∀ c ∈ ['T', '-', ':', '.', '+', '0'], c.toNat < 128 := by simp
  suffices hc : c.isDigit ∨ c ∈ ['T', '-', ':', '.', '+', '0'] from hc.elim toNat_lt_of_isDigit (hs c)
  simp only [text_toList hz, fields, zoneText_utc, List.mem_append, List.mem_cons, List.not_mem_nil,
    or_false] at h ⊢
  have hd {w n : Nat} (h : c ∈ digitsIn 10 w n) := isDigit_of_mem_digitsIn h
  have hc (h : c ∈ (clockText true (t.local' % microsPerDay).toNat).toList) := mem_clockText h
  grind

-- A moment in UTC is read as it was before it was written.
theorem ofIso?_text {t : Moment} (ht : t.InRange) (hz : t.zone = some 0) : ofIso? t.text = some t := by
  have hp := ht.day_isProper
  have ⟨hy, hm, hd⟩ := hp.fits
  have hpos : 0 ≤ t.local' % microsPerDay := Int.emod_nonneg _ (by decide)
  have hlt : t.local' % microsPerDay < microsPerDay := Int.emod_lt_of_pos _ (by decide)
  have hs : microsPerDay = 86400000000 := rfl
  have hyear : (t.day.year.toNat : Int) = t.day.year := by
    have := hp.left
    omega
  have hmicros : Int.ofNat (t.local' % microsPerDay).toNat = t.local' % microsPerDay :=
    Int.toNat_of_nonneg hpos
  have hw : separatorWidth 'T' - 1 = 0 := by decide
  rw [ofIso?, octets_ascii fun _ => text_ascii hz, text_toList hz]
  have hy' : t.day.year.toNat < 10 ^ 4 := by omega
  simp only [separatorAt?_fields hy' hm hd, Day.ofOctets?_fields hy' hm hd, drop_fields hy' hm hd, hyear,
    Option.bind_eq_bind, Option.bind_some, Option.filter_some, hp, decide_true, if_true, hw, List.drop_zero,
    time?_clockText (show (t.local' % microsPerDay).toNat < 86400000000 by omega), hmicros]
  rw [← hz, ofDay_day _ rfl]

end Moment

-- An expiry in UTC is read as it was before it was stored.
theorem Session.storedExpiry?_text {t : Moment} (ht : t.InRange) (hz : t.zone = some 0) :
    storedExpiry? t.text = some t := by
  rw [storedExpiry?, Moment.ofIso?_text ht hz, Option.map_some, Moment.orUtc, hz, Option.getD_some, ← hz]

end LabelPlaylists
