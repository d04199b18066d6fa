import LabelPlaylists.Proofs.Criteria.Dated

namespace LabelPlaylists

namespace Text

variable {c : Char} {s : List Char}

-- A digit of ASCII is a digit, with its place after the zero for its value.
theorem digitValue?_of_isDigit (h : c.isDigit) : digitValue? c = some (c.toNat - 48) := by
  simp only [Char.isDigit, Bool.and_eq_true, decide_eq_true_eq, UInt32.le_iff_toNat_le] at h
  have h : 48 ≤ c.toNat ∧ c.toNat ≤ 57 := h
  have hm : (c.toNat - 48) % 10 = c.toNat - 48 := Nat.mod_eq_of_lt (by omega)
  simp [digitValue?, digitRanges, h, hm]

theorem digitsValue_of_isDigit (h : ∀ c ∈ s, c.isDigit) : digitsValue s = asciiValue s := by
  unfold digitsValue asciiValue
  refine List.foldl_ext _ _ _ fun n c hc => ?_
  rw [digitValue?_of_isDigit (h c hc), Option.getD_some]

end Text

open Text

namespace Sql

-- Digits are the number they write.
theorem leadingNumber_digits {c : Char} {l : List Char} (hc : c.isDigit) (hl : ∀ d ∈ l, d.isDigit) :
    leadingNumber (c :: l) = asciiValue (c :: l) := by
  have hs : Datum.isSpace c = false := by
    simp only [Char.isDigit, Bool.and_eq_true, decide_eq_true_eq, UInt32.le_iff_toNat_le] at hc
    have h₁ : 48 ≤ c.toNat := hc.left
    have h₂ : c ≠ ' ' := by rintro rfl; exact absurd h₁ (by decide)
    have h₃ : ¬c.toNat ≤ 13 := by omega
    simp [Datum.isSpace, h₂, h₃]
  have ha : ∀ d ∈ c :: l, isAsciiDigit d :=
    List.forall_mem_cons.mpr ⟨isAsciiDigit_of_isDigit hc, fun d hd => isAsciiDigit_of_isDigit (hl d hd)⟩
  have h₁ : c ≠ '-' := by rintro rfl; cases hc
  have h₂ : c ≠ '+' := by rintro rfl; cases hc
  have hw : (c :: l).takeWhile isAsciiDigit = c :: l := List.takeWhile_eq_self_iff.mpr ha
  simp [leadingNumber, hs, h₁, h₂, hw]

-- The first four characters of such a day are its year.
theorem yearOf_dayText {d : Day} (hy : 0 ≤ d.year ∧ d.year ≤ 9999) :
    yearOf (.text (StoredDay.dayText d)) = .integer d.year := by
  have ht : (StoredDay.dayText d).toList = StoredDay.fields d.year.natAbs d.month d.day := by
    rw [StoredDay.dayText_toList, if_neg (by omega), List.nil_append]
  have hy₄ : d.year.natAbs < 10 ^ 4 := by omega
  have hn : (StoredDay.fields d.year.natAbs d.month d.day).takeWhile (·.toNat ≠ 0)
      = StoredDay.fields d.year.natAbs d.month d.day :=
    List.takeWhile_eq_self_iff.mpr fun c hc => decide_eq_true (StoredDay.toNat_of_mem_fields hc).right
  have hl : leadingNumber (digitsIn 10 4 d.year.natAbs) = d.year := by
    obtain ⟨c, l, hc, hd⟩ : ∃ c l, digitsIn 10 4 d.year.natAbs = c :: l ∧ c.isDigit :=
      StoredDay.exists_digitsIn_cons hy₄
    have hv := asciiValue_digitsIn hy₄
    have hdigits : ∀ e ∈ l, e.isDigit := fun e he => isDigit_of_mem_digitsIn (hc ▸ List.mem_cons_of_mem c he)
    rw [hc] at hv ⊢
    rw [leadingNumber_digits hd hdigits, hv]
    omega
  show Datum.integer (leadingNumber (((StoredDay.dayText d).toList.takeWhile (·.toNat ≠ 0)).take 4)) = _
  rw [ht, hn, StoredDay.fields, List.take_left' (length_digitsIn (by decide) hy₄), hl]

end Sql

namespace Day

variable {d : Day}

theorem exists_firstDay (year : Int) : (⟨year, 1, 1⟩ : Day).Exists := by
  have hm : ∀ leap, 1 ≤ monthLength leap 1 := by decide
  exact ⟨(by decide : 1 ≤ 1 ∧ 1 ≤ 12), Nat.le_refl 1, hm _⟩

theorem exists_lastDay (year : Int) : (⟨year, 12, 31⟩ : Day).Exists := by
  have hm : ∀ leap, 31 ≤ monthLength leap 12 := by decide
  exact ⟨(by decide : 1 ≤ 12 ∧ 12 ≤ 12), (by decide : 1 ≤ 31), hm _⟩

theorem number_lastDayOf (year : Int) : (⟨year, 12, 31⟩ : Day).number = daysBeforeYear (year + 1) := by
  have hm : ∀ leap, (daysBeforeMonth leap 12 : Int) + 31 = if leap then 366 else 365 := by decide
  rw [daysBeforeYear_succ, ← hm]
  show daysBeforeYear year + (daysBeforeMonth (isLeap year) 12 : Int) + 31 = _
  omega

theorem Exists.isProper (h : d.Exists) (hy : 1 ≤ d.year ∧ d.year ≤ 9999) : d.IsProper :=
  ⟨hy.left, hy.right, h.months.left, h.months.right, h.days⟩

-- A day comes before the first of a year if its own year does.
theorem order_firstDay (h : d.Exists) (year : Int) : d.order ⟨year, 1, 1⟩ = .lt ↔ d.year < year := by
  have hb := h.number_bounds
  rw [← compare_number h (exists_firstDay year), number_newYear, Int.compare_eq_lt]
  constructor
  case mp =>
    intro hlt
    have := fun hy : year ≤ d.year => daysBeforeYear_mono hy
    omega
  case mpr =>
    intro hlt
    have : daysBeforeYear (d.year + 1) ≤ daysBeforeYear year := daysBeforeYear_mono hlt
    omega

-- It comes after the last of a year if its own year does.
theorem order_lastDay (h : d.Exists) (year : Int) : d.order ⟨year, 12, 31⟩ = .gt ↔ year < d.year := by
  have hb := h.number_bounds
  rw [← compare_number h (exists_lastDay year), number_lastDayOf, Int.compare_eq_gt]
  constructor
  case mp =>
    intro hgt
    have := fun hy : d.year ≤ year => daysBeforeYear_mono (Int.add_le_add_right hy 1)
    omega
  case mpr =>
    intro hgt
    have : daysBeforeYear (year + 1) ≤ daysBeforeYear d.year := daysBeforeYear_mono hgt
    omega

theorem holds_firstDay (h : d.Exists) (year : Int) :
    Relation.lt.holds (d.order ⟨year, 1, 1⟩) = Relation.lt.holds (compare d.year year) := by
  have hc := (order_firstDay h year).trans Int.compare_eq_lt.symm
  rw [Bool.eq_iff_iff]
  exact Ordering.isLT_iff_eq_lt.trans (hc.trans Ordering.isLT_iff_eq_lt.symm)

theorem holds_lastDay (h : d.Exists) (year : Int) :
    Relation.gt.holds (d.order ⟨year, 12, 31⟩) = Relation.gt.holds (compare d.year year) := by
  have hc := (order_lastDay h year).trans Int.compare_eq_gt.symm
  rw [Bool.eq_iff_iff]
  exact Ordering.isGT_iff_eq_gt.trans (hc.trans Ordering.isGT_iff_eq_gt.symm)

end Day

namespace Criteria

open Sql (Scope)

variable {o p : Operator} {q r : Relation} {d e : Day} {n : Nat}

/-! ## The year and the release date as criteria -/

def yearTest (o : Operator) (n : Nat) : String := Attribute.year.comparison o (padded 4 n)

def releasedTest (o : Operator) (day : String) : String :=
  (Attribute.day .released).comparison o ("\"" ++ day ++ "\"")

theorem isDigit_of_mem_padded {c : Char} (h : c ∈ (padded 4 n).toList) : c.isDigit :=
  isDigit_of_mem_digitsIn (padded_toList 4 n ▸ h)

theorem spelled_padded (hn : n < 10 ^ 4) : (Lexeme.number (padded 4 n)).Spelled (padded 4 n).toList := by
  obtain ⟨c, l, hc, _⟩ : ∃ c l, digitsIn 10 4 n = c :: l ∧ c.isDigit := StoredDay.exists_digitsIn_cons hn
  have hl : (padded 4 n).toList = c :: l := by rw [padded_toList, hc]
  have hp : padded 4 n = String.ofList (c :: l) := by rw [← hl, String.ofList_toList]
  rw [hl, hp]
  refine .number fun d hd => ?_
  rw [isDigit, digitValue?_of_isDigit (isDigit_of_mem_padded (hl ▸ hd))]
  rfl

theorem denotes_padded (hn : n < 10 ^ 4) : Denotes (.number (padded 4 n)) (.number n) := by
  have hv : digitsValue (padded 4 n).toList = n := by
    rw [digitsValue_of_isDigit fun _ => isDigit_of_mem_padded, padded_toList, asciiValue_digitsIn hn]
  have hl : (padded 4 n).length ≤ 4300 := by
    rw [← String.length_toList, padded_toList, length_digitsIn (by decide) hn]
    decide
  have hd := Denotes.number hl
  rwa [hv] at hd

theorem compile_yearTest (ho : o.relation? = some r) (hn : n < 10 ^ 4) :
    compile (yearTest o n) = .ok (.year r n) := by
  have ⟨_, ht⟩ := ofText_comparison (a := .year) ho (spelled_padded hn) (denotes_padded hn)
  have hs : Condition.IsStorable n := ⟨by omega, by omega⟩
  exact bind_eq_ok_iff.mpr ⟨_, ht, Condition.ofComparison_eq_ok_iff.mpr (.year rfl ho hs)⟩

-- Between its quotes a day stands as it is.
theorem written_text (d : Day) : Token.written d.text = "\"" ++ d.text ++ "\"" := by
  have he : ∀ l : List Char, (∀ c ∈ l, c.isDigit ∨ c = '-') → Token.escaped doubleQuote l = l := by
    intro l h
    induction l
    case nil => rfl
    case cons c l hi =>
      have ⟨hc, hl⟩ := List.forall_mem_cons.mp h
      have hn : ¬(c = doubleQuote ∨ c = backslash) := by
        rintro (rfl | rfl) <;> exact absurd hc (by decide)
      rw [Token.escaped, if_neg hn, hi hl]
  have ht : Token.escaped doubleQuote d.text.toList = d.text.toList :=
    he _ fun c hc => StoredDay.mem_fields (StoredDay.text_toList d ▸ hc)
  rw [Token.written, ht, ← String.toList_inj]
  simp [doubleQuote]

theorem releasedTest_eq (o : Operator) (d : Day) :
    releasedTest o d.text = (Attribute.day .released).comparison o (Token.written d.text) := by
  rw [written_text, releasedTest]

theorem compile_releasedTest (ho : o.relation? = some r) (hd : d.IsProper) :
    compile (releasedTest o d.text) = .ok (.day .released r d.text) := by
  rw [releasedTest_eq]
  exact (Dated.comparison ho .released d.text).compile_eq_ok_iff.mpr
    ⟨r, d, ho, Day.ofIso?_of_written hd .date, rfl⟩

theorem compile_releasedTests (ho : o.relation? = some r) (hp : p.relation? = some q) (hd : d.IsProper)
    (he : e.IsProper) :
    compile (releasedTest o d.text ++ " and " ++ releasedTest p e.text)
      = .ok (.and [.day .released r d.text, .day .released q e.text]) := by
  rw [releasedTest_eq, releasedTest_eq]
  have ⟨i, j, ht⟩ := ofText_comparisons (a := .day .released) (b := .day .released) ho
    (Lexeme.spelled_written d.text) .string hp (Lexeme.spelled_written e.text) .string
  have hc {o : Operator} {r : Relation} {d : Day} (ho : o.relation? = some r) (hd : d.IsProper) (i : Nat) :
      Condition.ofTree (.comparison (Attribute.day .released).name o (.text d.text) i)
        = .ok (.day .released r d.text) :=
    Condition.ofComparison_eq_ok_iff.mpr (.day rfl ho (Day.ofIso?_of_written hd .date))
  refine bind_eq_ok_iff.mpr ⟨_, ht, ?_⟩
  rw [Condition.ofTree, Condition.ofTrees, Condition.ofTrees, Condition.ofTrees, hc ho hd, hc hp he]
  rfl

-- Criteria on the year of a release, and criteria on its date that come to the same.
inductive SameYears (n : Nat) : String → String → Prop
  | before : SameYears n (yearTest .lt n) (releasedTest .lt (padded 4 n ++ "-01-01"))
  | since  : SameYears n (yearTest .ge n) (releasedTest .ge (padded 4 n ++ "-01-01"))
  | after  : SameYears n (yearTest .gt n) (releasedTest .gt (padded 4 n ++ "-12-31"))
  | upTo   : SameYears n (yearTest .le n) (releasedTest .le (padded 4 n ++ "-12-31"))
  | within :
    SameYears n (yearTest .eq n)
      (releasedTest .ge (padded 4 n ++ "-01-01") ++ " and " ++ releasedTest .le (padded 4 n ++ "-12-31"))

theorem text_firstDay (n : Nat) : (⟨n, 1, 1⟩ : Day).text = padded 4 n ++ "-01-01" := by
  have h : padded 2 1 = "01" := by decide
  simp [Day.text, h, String.append_assoc]

theorem text_lastDay (n : Nat) : (⟨n, 12, 31⟩ : Day).text = padded 4 n ++ "-12-31" := by
  have h₁ : padded 2 12 = "12" := by decide
  have h₂ : padded 2 31 = "31" := by decide
  simp [Day.text, h₁, h₂, String.append_assoc]

-- The store holds a date of release in the years from 0 to 9999.
structure ReleasedOn (s : Scope) (d : Day) : Prop where
  value : s.value .released = .text (StoredDay.dayText d)
  year  : 0 ≤ d.year ∧ d.year ≤ 9999
  day   : d.Exists

namespace ReleasedOn

variable {s : Scope} {d' : Day}

theorem fits (h : ReleasedOn s d) : d.Fits := by
  have hl : ∀ leap, ∀ month ≤ 12, Day.monthLength leap month < 32 := by decide
  have hm := h.day.months.right
  have hd := h.day.days.right
  have := hl (Day.isLeap d.year) d.month hm
  have := h.year
  constructor <;> omega

theorem eval_year (h : ReleasedOn s d) (r : Relation) (n : Int) :
    (Condition.year r n).test.eval s [.integer n] = some (r.holds (compare d.year n)) := by
  show (Datum.compare? false (Sql.yearOf (s.value .released)) (.integer n)).map r.holds = _
  rw [h.value, Sql.yearOf_dayText h.year, compare?_integer]
  rfl

theorem eval_day (h : ReleasedOn s d) (he : e.IsProper) (r : Relation) (rest : List Datum) :
    (Condition.day .released r e.text).test.eval s (.text e.text :: rest) = some (r.holds (d.order e)) := by
  have hd : Sql.dayOf (s.value .released) = .text (StoredDay.dayText d) := by
    rw [h.value]
    show Datum.ofOption (StoredDay.ofText? (StoredDay.dayText d)) = _
    rw [StoredDay.ofText?_eq, StoredDay.day?_dayText h.year h.day]
    rfl
  show (Datum.compare? false (Sql.dayOf (s.value .released)) (.text e.text)).map r.holds = _
  rw [hd]
  exact congrArg (fun o => some (r.holds o)) (StoredDay.compare_dayText h.fits he)

theorem eval_days (h : ReleasedOn s d) (he : e.IsProper) (he' : d'.IsProper) (q r : Relation) :
    (Condition.and [.day .released r e.text, .day .released q d'.text]).test.eval s [.text e.text, .text d'.text]
      = some (r.holds (d.order e) && q.holds (d.order d')) := by
  show ((Condition.day .released r e.text).test.eval s [.text e.text, .text d'.text]).and
      (((Condition.day .released q d'.text).test.eval s [.text d'.text]).and (some true)) = _
  rw [h.eval_day he, h.eval_day he']
  cases r.holds (d.order e) <;> cases q.holds (d.order d') <;> rfl

end ReleasedOn

theorem fits_year (r : Relation) (n : Int) :
    (Condition.year r n).test.IsReadable ∧ (Condition.year r n).test.IsLow := by
  show (Sql.Test.compare r _ _).IsReadable ∧ (Sql.Test.compare r _ _).IsLow
  cases r <;> decide

theorem fits_day (r : Relation) (text : String) :
    (Condition.day .released r text).test.IsReadable ∧ (Condition.day .released r text).test.IsLow := by
  show (Sql.Test.compare r _ _).IsReadable ∧ (Sql.Test.compare r _ _).IsLow
  cases r <;> decide

theorem fits_days (text text' : String) :
    (Condition.and [.day .released .ge text, .day .released .le text']).test.IsReadable ∧
      (Condition.and [.day .released .ge text, .day .released .le text']).test.IsLow := by
  show (Sql.Test.and [Sql.Test.compare .ge _ _, Sql.Test.compare .le _ _]).IsReadable ∧
    (Sql.Test.and [Sql.Test.compare .ge _ _, Sql.Test.compare .le _ _]).IsLow
  decide

-- Criteria that the store can read, and that select alike by whatever date of release.
structure Agree (c c' : Condition) : Prop where
  left   : c.test.IsReadable ∧ c.test.IsLow
  right  : c'.test.IsReadable ∧ c'.test.IsLow
  passes : ∀ {s d}, ReleasedOn s d → c.filter.passes s = c'.filter.passes s

theorem agree_year {n : Int} (he : e.IsProper)
    (h : ∀ {d : Day}, d.Exists → r.holds (compare d.year n) = r.holds (d.order e)) :
    Agree (.year r n) (.day .released r e.text) where
  left      := fits_year r n
  right     := fits_day r e.text
  passes hs := by
    show ((Condition.year r n).test.eval _ [.integer n] == _)
      = ((Condition.day .released r e.text).test.eval _ [.text e.text] == _)
    rw [hs.eval_year, hs.eval_day he, h hs.day]

theorem SameYears.agree {text text' : String} (h : SameYears n text text') (hn : 1 ≤ n ∧ n ≤ 9999) :
    ∃ c c', compile text = .ok c ∧ compile text' = .ok c' ∧ Agree c c' := by
  have hn₄ : n < 10 ^ 4 := by omega
  have hy : 1 ≤ (n : Int) ∧ (n : Int) ≤ 9999 := by omega
  have hfirst : (⟨n, 1, 1⟩ : Day).IsProper := (Day.exists_firstDay n).isProper hy
  have hlast : (⟨n, 12, 31⟩ : Day).IsProper := (Day.exists_lastDay n).isProper hy
  have hlt {d : Day} (hd : d.Exists) := (Day.holds_firstDay hd n).symm
  have hgt {d : Day} (hd : d.Exists) := (Day.holds_lastDay hd n).symm
  have hge {d : Day} (hd : d.Exists) :
      Relation.ge.holds (compare d.year (n : Int)) = Relation.ge.holds (d.order ⟨n, 1, 1⟩) :=
    (Relation.lt.holds_opposite _).trans ((congrArg _ (hlt hd)).trans (Relation.lt.holds_opposite _).symm)
  have hle {d : Day} (hd : d.Exists) :
      Relation.le.holds (compare d.year (n : Int)) = Relation.le.holds (d.order ⟨n, 12, 31⟩) :=
    (Relation.gt.holds_opposite _).trans ((congrArg _ (hgt hd)).trans (Relation.gt.holds_opposite _).symm)
  cases h <;> simp only [← text_firstDay, ← text_lastDay]
  case before => exact ⟨_, _, compile_yearTest rfl hn₄, compile_releasedTest rfl hfirst, agree_year hfirst hlt⟩
  case since  => exact ⟨_, _, compile_yearTest rfl hn₄, compile_releasedTest rfl hfirst, agree_year hfirst hge⟩
  case after  => exact ⟨_, _, compile_yearTest rfl hn₄, compile_releasedTest rfl hlast, agree_year hlast hgt⟩
  case upTo   => exact ⟨_, _, compile_yearTest rfl hn₄, compile_releasedTest rfl hlast, agree_year hlast hle⟩
  case within =>
    refine ⟨_, _, compile_yearTest rfl hn₄, compile_releasedTests rfl rfl hfirst hlast, fits_year .eq n,
      fits_days _ _, fun {s d} hs => ?_⟩
    have he (o : Ordering) : Relation.eq.holds o = (Relation.ge.holds o && Relation.le.holds o) := by
      cases o <;> rfl
    show ((Condition.year .eq n).test.eval s [.integer n] == _)
      = ((Condition.and [.day .released .ge _, .day .released .le _]).test.eval s [.text _, .text _] == _)
    rw [hs.eval_year, hs.eval_days hfirst hlast, he, hge hs.day, hle hs.day]

end Criteria

end LabelPlaylists
