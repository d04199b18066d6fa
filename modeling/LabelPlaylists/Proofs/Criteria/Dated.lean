import LabelPlaylists.Proofs.Calendar.Written
import LabelPlaylists.Proofs.Criteria.Spelled

namespace LabelPlaylists

-- A day of the years from 0 on is written alike everywhere.
theorem StoredDay.dayText_eq_text {d : Day} (h : 0 ≤ d.year) : dayText d = d.text := by
  have hn : d.year.natAbs = d.year.toNat := by omega
  rw [dayText, Day.text, if_neg (Int.not_lt.mpr h), hn, String.empty_append]

-- Texts of days are ordered as the days are in time.
theorem Day.compare_text {d e : Day} (hd : d.IsProper) (he : e.IsProper) :
    compare d.text e.text = compare d.number e.number := by
  rw [← StoredDay.dayText_eq_text (Int.le_trans (by decide) hd.left), StoredDay.compare_dayText hd.fits he,
    compare_number hd.exists he.exists]

namespace Criteria

open Text (doubleQuote)

variable {a b : Attribute} {o p : Operator} {q r : Relation} {u v : Literal} {w x : String} {k l : Lexeme} {n : Nat}

/-! ## Comparisons as criteria -/

-- Lexemes in a text with single spaces between them.
theorem tokens_spaced {ls : List Lexeme} {ws : List (List Char)} (text : String)
    (ht : text.toList = [' '].intercalate ws) (h : List.Forall₂ Lexeme.Spelled ls ws) :
    ∃ ts, tokens text = .ok ts ∧ ts.map (·.lexeme) = ls := by
  have ⟨ts, hs, hl⟩ := Token.scan_spaced h 0
  exact ⟨ts, by rwa [tokens, ht], hl⟩

theorem Token.spells_escaped {quote : Char} (hn : quote ≠ '\n') (value : List Char) :
    Spells quote (escaped quote value) value := by
  induction value
  case nil => exact .nil
  case cons c value hi =>
    rw [escaped]
    split
    case isTrue h =>
      refine .escape ?_ hi
      rintro rfl
      rcases h with rfl | h
      · exact hn rfl
      · exact absurd h (by decide)
    case isFalse h =>
      have ⟨hc, hs⟩ := not_or.mp h
      exact .plain hc hs hi

theorem Lexeme.spelled_written (s : String) : (Lexeme.string s).Spelled (Token.written s).toList := by
  have hb : Token.Spells doubleQuote (Token.escaped doubleQuote s.toList) s.toList :=
    Token.spells_escaped (by decide) s.toList
  have h := Spelled.string (by decide) hb
  rw [String.ofList_toList] at h
  rwa [Token.written, String.toList_ofList]

namespace Attribute

theorem spelled_name (a : Attribute) : (Lexeme.word a.name).Spelled a.name.toList := by
  have ⟨c, run, hn, hc, hr, hw⟩ : ∃ c run, a.name.toList = c :: run ∧ Token.isNameStart c ∧
      run.all Token.isNameChar ∧ Lexeme.ofWord (String.ofList (c :: run)) = .word a.name := by
    rcases a with ⟨⟨⟩⟩ | _ | ⟨⟨⟩⟩ | _ <;> exact ⟨_, _, rfl, by decide +kernel⟩
  rw [hn, ← hw]
  exact .word hc (List.all_eq_true.mp hr)

theorem map_toLower_name (a : Attribute) : a.name.map Char.toLower = a.name := by
  rcases a with ⟨⟨⟩⟩ | _ | ⟨⟨⟩⟩ | _ <;> decide +kernel

theorem ofName?_name (a : Attribute) : ofName? a.name = some a := by
  rcases a with ⟨⟨⟩⟩ | _ | ⟨⟨⟩⟩ | _ <;> rfl

-- An attribute compared with a literal that is written as given.
def comparison (a : Attribute) (o : Operator) (literal : String) : String :=
  a.name ++ " " ++ o.text ++ " " ++ literal

end Attribute

theorem Operator.spelled_text (h : o.relation? = some r) : (Lexeme.operator o).Spelled o.text.toList :=
  .symbol (by cases o <;> cases h <;> decide)

theorem Derives.compared {i j m : Token} (hi : i.lexeme = .word a.name) (hj : j.lexeme = .operator o)
    (hm : m.lexeme = l) (hl : Denotes l v) :
    Derives n .negation [i, j, m] [.comparison a.name o v i.position] := by
  have h := Derives.comparison (n := n) hi hj (hm ▸ hl)
  rwa [a.map_toLower_name] at h

theorem ofText_comparison (ho : o.relation? = some r) (hs : l.Spelled w.toList) (hv : Denotes l v) :
    ∃ position, Tree.ofText (a.comparison o w) = .ok (.comparison a.name o v position) := by
  have hw := List.Forall₂.cons a.spelled_name (.cons (o.spelled_text ho) (.cons hs .nil))
  have ⟨ts, ht, hl⟩ := tokens_spaced (a.comparison o w) (by simp [Attribute.comparison]) hw
  obtain ⟨i, ts, rfl, hi, hl⟩ := List.map_eq_cons_iff.mp hl
  obtain ⟨j, ts, rfl, hj, hl⟩ := List.map_eq_cons_iff.mp hl
  obtain ⟨m, ts, rfl, hm, hl⟩ := List.map_eq_cons_iff.mp hl
  cases List.map_eq_nil_iff.mp hl
  have hd := (Derives.compared (n := 100) hi hj hm hv).expression
  exact ⟨_, bind_eq_ok_iff.mpr ⟨_, ht, Tree.ofTokens_of_derives _ hd⟩⟩

-- Two comparisons with the word and between them.
theorem ofText_comparisons (ho : o.relation? = some r) (hs : l.Spelled w.toList) (hv : Denotes l v)
    (hp : p.relation? = some q) (ht : k.Spelled x.toList) (hu : Denotes k u) :
    ∃ i j, Tree.ofText (a.comparison o w ++ " and " ++ b.comparison p x)
      = .ok (.and [.comparison a.name o v i, .comparison b.name p u j]) := by
  have hw := List.Forall₂.cons a.spelled_name (.cons (o.spelled_text ho) (.cons hs
    (.cons (Lexeme.spelled_keyword (l := .and) (by decide))
      (.cons b.spelled_name (.cons (p.spelled_text hp) (.cons ht .nil))))))
  have ⟨ts, ht, hl⟩ := tokens_spaced (a.comparison o w ++ " and " ++ b.comparison p x)
    (by simp [Attribute.comparison, Lexeme.value]) hw
  obtain ⟨i, ts, rfl, hi, hl⟩ := List.map_eq_cons_iff.mp hl
  obtain ⟨j, ts, rfl, hj, hl⟩ := List.map_eq_cons_iff.mp hl
  obtain ⟨m, ts, rfl, hm, hl⟩ := List.map_eq_cons_iff.mp hl
  obtain ⟨c, ts, rfl, hc, hl⟩ := List.map_eq_cons_iff.mp hl
  obtain ⟨i', ts, rfl, hi', hl⟩ := List.map_eq_cons_iff.mp hl
  obtain ⟨j', ts, rfl, hj', hl⟩ := List.map_eq_cons_iff.mp hl
  obtain ⟨m', ts, rfl, hm', hl⟩ := List.map_eq_cons_iff.mp hl
  cases List.map_eq_nil_iff.mp hl
  have hd : Derives 100 .expression [i, j, m, c, i', j', m'] _ :=
    .alone (.last (.join (.more (c := .and) (.compared hi hj hm hv) hc
      (.last (.compared hi' hj' hm' hu))) (Nat.le_refl 2)))
  exact ⟨_, _, bind_eq_ok_iff.mpr ⟨_, ht, Tree.ofTokens_of_derives _ hd⟩⟩

/-! ## Days in criteria -/

-- Criteria that compare a day of a track with a text.
def Dated (text : String) (a : DayAttribute) (o : Operator) (s : String) : Prop :=
  ∃ position, Tree.ofText text = .ok (.comparison (Attribute.day a).name o (.text s) position)

namespace Dated

variable {a : DayAttribute} {s text : String} {c : Condition}

-- Whatever a text is, a day can be compared with it.
theorem comparison (ho : o.relation? = some r) (a : DayAttribute) (s : String) :
    Dated ((Attribute.day a).comparison o (Token.written s)) a o s :=
  ofText_comparison ho (Lexeme.spelled_written s) .string

-- They are accepted exactly if the text is one of a day.
theorem compile_eq_ok_iff (h : Dated text a o s) :
    compile text = .ok c ↔ ∃ r d, o.relation? = some r ∧ Day.ofIso? s = some d ∧ c = .day a r d.text := by
  obtain ⟨position, ht⟩ := h
  have hc : compile text = Condition.ofComparison (Attribute.day a).name o (.text s) position := by
    rw [compile, ht]
    rfl
  rw [hc, Condition.ofComparison_eq_ok_iff]
  constructor
  case mp =>
    intro h
    cases h
    case day a' r d ha hr hd =>
      cases (Attribute.ofName?_name (.day a)).symm.trans ha
      exact ⟨r, d, hr, hd, rfl⟩
    case text ha _ => cases (Attribute.ofName?_name (.day a)).symm.trans ha
  case mpr =>
    rintro ⟨r, d, hr, hd, rfl⟩
    exact .day (Attribute.ofName?_name _) hr hd

end Dated

-- Days in criteria come to the days that are written, as texts that the store can compare.
-- 1. a day of a track can be compared with every text
-- 2. if the text is any way of writing a day of the years 1 to 9999, it is accepted, and that day is bound as
--    YYYY-MM-DD
-- 3. whatever text is accepted, an existing day is bound so, and a comparison with what is bound gives the
--    same filter
-- 4. what is bound for two texts is ordered as text just as the days are in time
theorem filter_dated {o : Operator} {r : Relation} (ho : o.relation? = some r) (a : DayAttribute) :
    (∀ s, ∃ text, Dated text a o s) ∧
    (∀ (d : Day) (s text : String), d.IsProper → d.Written s → Dated text a o s →
      ∃ c, compile text = .ok c ∧ c.filter.parameters = [.text d.text]) ∧
    (∀ (s text : String) (c : Condition), Dated text a o s → compile text = .ok c →
      ∃ d : Day, d.IsProper ∧ c.filter.parameters = [.text d.text] ∧
        ∀ text', Dated text' a o d.text → ∃ c', compile text' = .ok c' ∧ c'.filter = c.filter) ∧
    ∀ (s s' text text' : String) (c c' : Condition) (a' : DayAttribute) (o' : Operator),
      Dated text a o s → Dated text' a' o' s' → compile text = .ok c → compile text' = .ok c' →
      ∃ d d' : Day, Day.ofIso? s = some d ∧ Day.ofIso? s' = some d' ∧ c.filter.parameters = [.text d.text] ∧
        c'.filter.parameters = [.text d'.text] ∧ compare d.text d'.text = compare d.number d'.number := by
  refine ⟨fun s => ⟨_, Dated.comparison ho a s⟩, fun d s text hd hs ht => ?_, fun s text c ht hc => ?_,
    fun s s' text text' c c' a' o' ht ht' hc hc' => ?_⟩
  case refine_1 =>
    exact ⟨_, ht.compile_eq_ok_iff.mpr ⟨r, d, ho, Day.ofIso?_of_written hd hs, rfl⟩, rfl⟩
  case refine_2 =>
    obtain ⟨r', d, hr, hd, rfl⟩ := ht.compile_eq_ok_iff.mp hc
    have hp := Day.ofIso?_isProper hd
    refine ⟨d, hp, rfl, fun text' ht' => ⟨_, ht'.compile_eq_ok_iff.mpr ⟨r', d, hr, ?_, rfl⟩, rfl⟩⟩
    exact Day.ofIso?_of_written hp .date
  case refine_3 =>
    obtain ⟨_, d, _, hd, rfl⟩ := ht.compile_eq_ok_iff.mp hc
    obtain ⟨_, d', _, hd', rfl⟩ := ht'.compile_eq_ok_iff.mp hc'
    exact ⟨d, d', hd, hd', rfl, rfl, Day.compare_text (Day.ofIso?_isProper hd) (Day.ofIso?_isProper hd')⟩

def newYear : Day := ⟨2021, 1, 1⟩

-- New Year's Day of 2021 was the Friday of the last week of the year before.
theorem written_newYear : newYear.Written "2020-W53-5" := by
  have h := Day.Written.weekDate (d := newYear)
  have hw : Text.padded 4 newYear.weekYear.toNat ++ "-W" ++ Text.padded 2 newYear.week ++ "-"
      ++ Text.padded 1 (newYear.weekday.toNat + 1) = "2020-W53-5" := by decide +kernel
  rwa [hw] at h

theorem filter_dated_newYear :
    Operator.lt.relation? = some .lt ∧ Dated "released < \x222020-W53-5\x22" .released .lt "2020-W53-5" ∧
      Dated "added < \x2220201231\x22" .added .lt "20201231" ∧
      ∃ c c', compile "released < \x222020-W53-5\x22" = .ok c ∧ c.filter.parameters = [.text "2021-01-01"] ∧
        compile "added < \x2220201231\x22" = .ok c' ∧ c'.filter.parameters = [.text "2020-12-31"] ∧
        compare "2021-01-01" "2020-12-31" = compare newYear.number (newYear.number - 1) := by
  have hl : Operator.lt.relation? = some .lt := rfl
  have h₁ : "released < \x222020-W53-5\x22"
      = (Attribute.day .released).comparison .lt (Token.written "2020-W53-5") := by decide +kernel
  have h₂ : "added < \x2220201231\x22"
      = (Attribute.day .added).comparison .lt (Token.written "20201231") := by decide +kernel
  have hd₁ := Dated.comparison hl .released "2020-W53-5"
  have hd₂ := Dated.comparison hl .added "20201231"
  have hw : (⟨2020, 12, 31⟩ : Day).Written "20201231" := by
    have hs : Text.padded 4 2020 ++ Text.padded 2 12 ++ Text.padded 2 31 = "20201231" := by decide +kernel
    exact hs ▸ .compactDate
  rw [← h₁] at hd₁
  rw [← h₂] at hd₂
  have ⟨_, hf₁, _, hf⟩ := filter_dated hl .released
  have ⟨_, hf₂, _⟩ := filter_dated hl .added
  have ⟨c, hc, hp⟩ := hf₁ newYear _ _ (by decide) written_newYear hd₁
  have ⟨c', hc', hp'⟩ := hf₂ ⟨2020, 12, 31⟩ _ _ (by decide) hw hd₂
  have ⟨d, d', hd, hd', _, _, ho⟩ := hf _ _ _ _ _ _ _ _ hd₁ hd₂ hc hc'
  cases hd.symm.trans (Day.ofIso?_of_written (by decide) written_newYear)
  cases hd'.symm.trans (Day.ofIso?_of_written (by decide) hw)
  exact ⟨hl, hd₁, hd₂, c, c', hc, hp, hc', hp', ho⟩

end Criteria

end LabelPlaylists
