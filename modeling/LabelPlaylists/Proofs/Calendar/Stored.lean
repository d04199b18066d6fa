import LabelPlaylists.Calendar.Iso
import LabelPlaylists.Calendar.Stored
import LabelPlaylists.Proofs.Text.Digits

namespace LabelPlaylists

namespace Day

-- Days in order: first by year, then by month, then by day of the month.
def order (d e : Day) : Ordering :=
  (compare d.year e.year).then ((compare d.month e.month).then (compare d.day e.day))

-- A day whose fields have no more digits than they are written with.
structure Fits (d : Day) : Prop where
  year  : d.year.natAbs < 10 ^ 4
  month : d.month < 10 ^ 2
  day   : d.day < 10 ^ 2

theorem IsProper.fits {d : Day} (h : d.IsProper) : d.Fits := by
  have hl : ∀ leap, ∀ month ≤ 12, monthLength leap month < 32 := by decide
  have ⟨_, _, _, hm, _, hd⟩ := h
  have := hl (isLeap d.year) d.month hm
  constructor <;> omega

theorem ofIso?_isProper {s : String} {d : Day} (h : ofIso? s = some d) : d.IsProper := by
  simp only [ofIso?] at h
  split at h
  case isTrue  => exact of_decide_eq_true (Option.filter_eq_some_iff.mp h).right
  case isFalse => cases h

end Day

namespace StoredDay

-- The day of a stored date text.
def day? (s : String) : Option Day :=
  match read? (Text.octetsToNull s) with
  | none => none
  | some (t, written) => if t < 0 ∨ lastMillis < t then none else written.getD (ofJulianMillis t)

theorem ofText?_eq (s : String) : ofText? s = (day? s).map dayText := by
  unfold ofText? day?
  cases read? (Text.octetsToNull s) <;> dsimp only
  case none => rfl
  case some r =>
    split
    case isTrue  => rfl
    case isFalse => cases r.2 <;> rfl

theorem field?_le {count low high n : Nat} {s rest : List Char}
    (h : field? count low high s = some (n, rest)) : n ≤ high := by
  simp only [field?] at h
  split at h
  case isTrue hs => cases h; exact hs.right.right.right
  case isFalse   => cases h

theorem dayAndTime?_fits {s : List Char} {d : Day} {t : Option Time}
    (h : dayAndTime? s = some (d, t)) : d.Fits := by
  unfold dayAndTime? at h
  simp only [Option.bind_eq_bind, Option.bind_eq_some_iff, Prod.exists] at h
  obtain ⟨year, _, hy, _, _, month, _, hm, _, _, day, _, hd, h⟩ := h
  have hy := field?_le hy
  have hm := field?_le hm
  have hd := field?_le hd
  have hf (negative : Bool) : Day.Fits ⟨if negative then -Int.ofNat year else year, month, day⟩ := by
    constructor <;> dsimp only
    case year =>
      rw [Int.ofNat_eq_natCast]
      split <;> omega
    all_goals omega
  split at h
  case h_1 => cases h; exact hf _
  case h_2 =>
    split at h <;> cases h
    exact hf _

theorem tdiv_of_neg {n k : Int} (h : n < 0) : n.tdiv k = -(-n / k) := by
  rw [← Int.tdiv_eq_ediv_of_nonneg (by omega), Int.neg_tdiv, Int.neg_neg]

-- Up to the year 9999 a Julian time has a year of at most four digits.
theorem ofJulianMillis_fits {t : Int} (h₀ : 0 ≤ t) (h : t ≤ lastMillis) :
    (ofJulianMillis t).Fits := by
  unfold ofJulianMillis
  extract_lets z a₀ a b c d e x month year
  have hz : 0 ≤ z ∧ z ≤ 5373484 := by
    unfold lastMillis at h
    unfold z millisPerDay
    omega
  have ha : -100 ≤ a ∧ a ≤ 5373557 := by
    by_cases hn : 4 * z - 7468865 < 0
    case pos =>
      have h₀ : a₀ = -(-(4 * z - 7468865) / 146097) := tdiv_of_neg hn
      have h₁ : a₀.tdiv 4 = -(-a₀ / 4) := by
        by_cases h : a₀ < 0
        case pos => exact tdiv_of_neg h
        case neg =>
          have h₀ : a₀ = 0 := by omega
          rw [h₀]
          rfl
      omega
    case neg =>
      have h₀ : a₀ = (4 * z - 7468865) / 146097 := Int.tdiv_eq_ediv_of_nonneg (by omega)
      have h₁ : a₀.tdiv 4 = a₀ / 4 := Int.tdiv_eq_ediv_of_nonneg (by omega)
      omega
  have hb : 1424 ≤ b ∧ b ≤ 5375081 := by omega
  have hc : c = (100 * b - 12210) / 36525 := Int.tdiv_eq_ediv_of_nonneg (by omega)
  have hd : d = 36525 * c / 100 := Int.tdiv_eq_ediv_of_nonneg (by omega)
  have he : e = 10000 * (b - d) / 306001 := Int.tdiv_eq_ediv_of_nonneg (by omega)
  have hx : x = 306001 * e / 10000 := Int.tdiv_eq_ediv_of_nonneg (by omega)
  have hd' : 122 ≤ b - d ∧ b - d ≤ 488 := by omega
  have he' : 3 ≤ e ∧ e ≤ 15 := by omega
  have hx' : b - d - x ≤ 31 := by omega
  constructor
  case year =>
    show year.natAbs < 10 ^ 4
    have hm : month > 2 ↔ e < 14 := by
      unfold month
      split <;> omega
    have hc' : c ≤ 14715 := by omega
    have hl : 14 ≤ e → c ≤ 14714 := by omega
    unfold year
    split <;> omega
  case month =>
    show month.toNat < 10 ^ 2
    unfold month
    split <;> omega
  case day => show (b - d - x).toNat < 10 ^ 2; omega

theorem read?_fits {s : List Char} {t : Int} {d : Day} (h : read? s = some (t, some d)) :
    d.Fits := by
  unfold read? at h
  split at h
  case h_1 hd => cases h; exact dayAndTime?_fits hd
  case h_2 hd =>
    split at h <;> cases h
    exact dayAndTime?_fits hd
  case h_3 =>
    split at h
    case h_1 => cases h
    case h_2 =>
      have ⟨_, _, he⟩ := Option.map_eq_some_iff.mp h
      cases he

theorem day?_fits {s : String} {d : Day} (h : day? s = some d) : d.Fits := by
  unfold day? at h
  split at h
  case h_1 => cases h
  case h_2 t written hr =>
    split at h
    case isTrue    => cases h
    case isFalse hl =>
      have ⟨h₀, hl⟩ := not_or.mp hl
      cases written <;> cases h
      case none => exact ofJulianMillis_fits (Int.not_lt.mp h₀) (Int.not_lt.mp hl)
      case some => exact read?_fits hr

open Text

-- A year, a month and a day of the month with hyphens between them.
def fields (y m d : Nat) : List Char :=
  digitsIn 10 4 y ++ '-' :: (digitsIn 10 2 m ++ '-' :: digitsIn 10 2 d)

theorem dayText_toList (d : Day) :
    (dayText d).toList
      = (if d.year < 0 then ['-'] else []) ++ fields d.year.natAbs d.month d.day := by
  have hh : "-".toList = ['-'] := rfl
  simp only [dayText, fields, String.toList_append, padded_toList, hh, List.append_assoc,
    List.cons_append, List.nil_append]
  congr 1
  split <;> rfl

theorem text_toList (d : Day) : d.text.toList = fields d.year.toNat d.month d.day := by
  have hh : "-".toList = ['-'] := rfl
  simp only [Day.text, fields, String.toList_append, padded_toList, hh, List.append_assoc,
    List.cons_append, List.nil_append]

theorem compare_fields {y y' m m' d d' : Nat} (hy : y < 10 ^ 4) (hy' : y' < 10 ^ 4)
    (hm : m < 10 ^ 2) (hm' : m' < 10 ^ 2) (hd : d < 10 ^ 2) (hd' : d' < 10 ^ 2) :
    compareOfLessAndEq (fields y m d) (fields y' m' d')
      = (compare y y').then ((compare m m').then (compare d d')) := by
  have hl {w n n' : Nat} (h : n < 10 ^ (w + 1)) (h' : n' < 10 ^ (w + 1)) :
      (digitsIn 10 (w + 1) n).length = (digitsIn 10 (w + 1) n').length := by
    rw [length_digitsIn (by decide) h, length_digitsIn (by decide) h']
  have hh : compareOfLessAndEq '-' '-' = .eq := by decide
  unfold fields
  rw [compare_append (hl hy hy'), compare_cons, compare_append (hl hm hm'), compare_cons, hh,
    compare_digitsIn hy hy', compare_digitsIn hm hm', compare_digitsIn hd hd']
  rfl

-- Written days are ordered as the days are, if one of them lies in the years from 1 on.
theorem compare_dayText {d e : Day} (hd : d.Fits) (he : e.IsProper) :
    compare (dayText d) e.text = d.order e := by
  have hf := he.fits
  have hp : 1 ≤ e.year := he.left
  have hy := hf.year
  rw [compare_toList, dayText_toList, text_toList]
  unfold Day.order
  by_cases hn : d.year < 0
  case pos =>
    -- A minus sign comes before every digit.
    have hl : compare d.year e.year = .lt := Int.compare_eq_lt.mpr (by omega)
    rw [hl, if_pos hn]
    have ⟨c, l, hc⟩ : ∃ c l, digitsIn 10 4 e.year.toNat = c :: l := by
      apply List.exists_cons_of_length_pos
      rw [length_digitsIn (by decide) (by omega)]
      decide
    have hm : c.isDigit := isDigit_of_mem_digitsIn (hc ▸ List.mem_cons_self)
    unfold fields
    rw [hc, List.cons_append, List.cons_append, compare_cons]
    have hlt : '-' < c := by
      simp only [Char.isDigit, Bool.and_eq_true, decide_eq_true_eq] at hm
      exact UInt32.lt_of_lt_of_le (by decide : '-'.val < '0'.val) hm.left
    have ho : compareOfLessAndEq '-' c = .lt := if_pos hlt
    rw [ho]
    rfl
  case neg =>
    have hc : compare d.year.natAbs e.year.toNat = compare d.year e.year := by
      rcases Int.lt_trichotomy d.year e.year with h | h | h
      · rw [Int.compare_eq_lt.mpr h, Nat.compare_eq_lt.mpr (by omega)]
      · rw [Int.compare_eq_eq.mpr h, Nat.compare_eq_eq.mpr (by omega)]
      · rw [Int.compare_eq_gt.mpr h, Nat.compare_eq_gt.mpr (by omega)]
    rw [if_neg hn, List.nil_append, compare_fields hd.year (by omega) hd.month hf.month hd.day
      hf.day, hc]

end StoredDay

end LabelPlaylists
