import LabelPlaylists.Proofs.Text.Utf8
import LabelPlaylists.Web.Form

namespace LabelPlaylists.Web

open Text

variable {c d : Char} {s t : List Char} {spared : List Char} {n : Nat}

/-! ## Percent encoding -/

theorem hexValue?_hexDigit (h : n < 16) : hexValue? (hexDigit n) = some n := by
  have hall : ∀ n < 16, hexValue? (hexDigit n) = some n := by decide
  exact hall n h

theorem isUnreserved_hexDigit (h : n < 16) : isUnreserved (hexDigit n) := by
  have hall : ∀ n < 16, isUnreserved (hexDigit n) = true := by decide
  exact hall n h

theorem isUnreserved_ascii (h : isUnreserved c) : c.toNat < 128 := by
  have hle {d : Char} (h : c.val ≤ d.val) (hd : d.toNat < 128) : c.toNat < 128 :=
    Nat.lt_of_le_of_lt (UInt32.le_iff_toNat_le.mp h) hd
  have h : ((c.isUpper || c.isLower) || c.isDigit || c = '-' || c = '.' || c = '_' || c = '~') = true := h
  simp only [Bool.or_eq_true, decide_eq_true_eq] at h
  obtain (((((h | h) | h) | rfl) | rfl) | rfl) | rfl := h
  · exact hle (of_decide_eq_true h : _ ∧ c.val ≤ 'Z'.val).right (by decide)
  · exact hle (of_decide_eq_true (Bool.and_eq_true_iff.mp h).right : c.val ≤ 'z'.val) (by decide)
  · exact hle (of_decide_eq_true (Bool.and_eq_true_iff.mp h).right : c.val ≤ '9'.val) (by decide)
  all_goals decide

theorem unescaped_cons (h : c ≠ '%') : unescaped (c :: s) = c.toNat :: unescaped s := by
  rw [unescaped]
  rintro _ _ _ rfl
  exact absurd rfl h

theorem unescaped_escapedOctet (h : n < 256) : unescaped (escapedOctet n ++ s) = n :: unescaped s := by
  show unescaped ('%' :: hexDigit (n / 16) :: hexDigit (n % 16) :: s) = _
  rw [unescaped, hexValue?_hexDigit (by omega), hexValue?_hexDigit (by omega)]
  simp only [List.cons.injEq, and_true]
  omega

theorem toNat_lt_of_mem_octets {s : String} (h : c ∈ octets s) : c.toNat < 256 := by
  have ⟨b, _, hb⟩ := List.mem_map.mp h
  rw [← hb, toNat_ofNat b.toNat_lt]
  exact b.toNat_lt

theorem mem_percentEncode {s : String} (h : c ∈ percentEncode spared s) :
    isUnreserved c ∨ c ∈ spared ∨ c = '%' := by
  have ⟨o, ho, h⟩ := List.mem_flatMap.mp h
  have ho := toNat_lt_of_mem_octets ho
  split at h
  case isTrue hs =>
    cases List.mem_singleton.mp h
    simp only [Bool.or_eq_true, List.contains_iff_mem] at hs
    exact hs.imp_right .inl
  case isFalse =>
    simp only [escapedOctet, List.mem_cons, List.not_mem_nil, or_false] at h
    rcases h with rfl | rfl | rfl
    · exact .inr (.inr rfl)
    · exact .inl (isUnreserved_hexDigit (by omega))
    · exact .inl (isUnreserved_hexDigit (by omega))

-- Octets that have been escaped are read again.
theorem unescaped_percentEncode (h : '%' ∉ spared) (s : String) :
    unescaped (percentEncode spared s) = Utf8.unitsOf s.toList := by
  have hu {os : List Char} (ho : ∀ o ∈ os, o.toNat < 256) :
      unescaped (os.flatMap fun c =>
        if isUnreserved c || spared.contains c then [c] else escapedOctet c.toNat) = os.map Char.toNat := by
    induction os
    case nil => rfl
    case cons o os hi =>
      have ⟨hl, ho⟩ := List.forall_mem_cons.mp ho
      rw [List.flatMap_cons, List.map_cons, ← hi ho]
      split
      case isTrue hs =>
        refine unescaped_cons ?_
        rintro rfl
        simp only [Bool.or_eq_true, List.contains_iff_mem] at hs
        exact hs.elim (by decide) h
      case isFalse => exact unescaped_escapedOctet hl
  rw [percentEncode, hu fun _ => toNat_lt_of_mem_octets, Utf8.octets_toNat]

theorem decodeRuns_ascii (run : List Char) (h : ∀ c ∈ s, c.toNat < 128) :
    decodeRuns run s = Utf8.replacing 0 (unescaped (run.reverse ++ s)) := by
  induction s generalizing run
  case nil => rw [decodeRuns, List.append_nil]
  case cons c s hi =>
    have ⟨hc, hs⟩ := List.forall_mem_cons.mp h
    rw [decodeRuns, if_pos hc, hi _ hs, List.reverse_cons, List.append_assoc]
    rfl

/-! ## Forms -/

-- The characters of encoded names and values.
def isFormChar (c : Char) : Bool := isUnreserved c || c = '%' || c = '+'

theorem isFormChar_of_mem {s : String} (h : c ∈ formEncode s) : isFormChar c := by
  have ⟨d, hd, h⟩ := List.mem_map.mp h
  split at h
  case isTrue => exact h ▸ rfl
  case isFalse hn =>
    subst h
    rcases mem_percentEncode hd with h | h | h
    · simp [isFormChar, h]
    · exact absurd (List.mem_singleton.mp h) hn
    · exact h ▸ rfl

-- What has been encoded is decoded.
theorem formDecode_formEncode (s : String) : formDecode (formEncode s) = s := by
  have hd : (formEncode s).map (fun c => if c = '+' then ' ' else c) = percentEncode [' '] s := by
    rw [formEncode, List.map_map]
    refine (List.map_congr_left fun c hc => ?_).trans (List.map_id _)
    have hp : c ≠ '+' := by
      rintro rfl
      rcases mem_percentEncode hc with h | h | h <;> revert h <;> decide
    by_cases h : c = ' '
    case pos => simp [h]
    case neg => simp [h, hp]
  have ha : ∀ c ∈ percentEncode [' '] s, c.toNat < 128 := by
    intro c hc
    rcases mem_percentEncode hc with h | h | rfl
    · exact isUnreserved_ascii h
    · exact List.mem_singleton.mp h ▸ by decide
    · decide
  rw [formDecode, hd, decodeRuns_ascii [] ha, List.reverse_nil, List.nil_append,
    unescaped_percentEncode (by decide), Utf8.replacing_unitsOf, String.ofList_toList]

theorem formEncode_ne_nil {s : String} (h : s ≠ "") : formEncode s ≠ [] := by
  intro he
  have hd := formDecode_formEncode s
  rw [he] at hd
  exact h hd.symm

theorem splitAt_eq (separator : Char) (s : List Char) : splitAt separator s = s.splitOn separator := by
  induction s
  case nil => rw [splitAt, List.splitOn_nil]
  case cons c s hi =>
    rw [splitAt, hi, List.splitOn_cons_eq_if_modifyHead]
    cases hs : s.splitOn separator
    case nil => exact absurd hs (List.splitOn_ne_nil _ _)
    case cons => simp

theorem splitAt_intercalate {separator : Char} {pieces : List (List Char)} (hn : pieces ≠ [])
    (h : ∀ p ∈ pieces, separator ∉ p) : splitAt separator ([separator].intercalate pieces) = pieces := by
  rw [splitAt_eq, List.splitOn_intercalate separator h hn]

theorem intercalate_splitAt (separator : Char) (s : List Char) :
    [separator].intercalate (splitAt separator s) = s := by
  rw [splitAt_eq, List.intercalate_splitOn]

theorem notMem_splitAt {separator : Char} {s p : List Char} (h : p ∈ splitAt separator s) : separator ∉ p := by
  induction s generalizing p
  case nil =>
    cases List.mem_singleton.mp h
    exact List.not_mem_nil
  case cons c s hi =>
    rw [splitAt] at h
    split at h
    case isTrue =>
      rcases List.mem_cons.mp h with rfl | h
      · exact List.not_mem_nil
      · exact hi h
    case isFalse hc =>
      cases hs : splitAt separator s <;> simp only [hs] at h hi
      case nil =>
        cases List.mem_singleton.mp h
        exact fun hm => hc (List.mem_singleton.mp hm).symm
      case cons first others =>
        rcases List.mem_cons.mp h with rfl | h
        · exact fun hm => (List.mem_cons.mp hm).elim (fun he => hc he.symm) (hi List.mem_cons_self)
        · exact hi (List.mem_cons_of_mem _ h)

def fieldText (f : String × String) : List Char := formEncode f.1 ++ '=' :: formEncode f.2

theorem toList_formText (fields : List (String × String)) :
    (formText fields).toList = ['&'].intercalate (fields.map fieldText) := by
  rw [formText, String.toList_intercalate, List.map_map]
  exact congrArg _ (List.map_congr_left fun f _ => String.toList_ofList)

theorem mem_fieldText {f : String × String} (h : c ∈ fieldText f) : isFormChar c ∨ c = '=' := by
  rcases List.mem_append.mp h with h | h
  · exact .inl (isFormChar_of_mem h)
  · exact (List.mem_cons.mp h).symm.imp_left isFormChar_of_mem

theorem mem_intercalate {separator : Char} {pieces : List (List Char)}
    (h : c ∈ [separator].intercalate pieces) : c = separator ∨ ∃ p ∈ pieces, c ∈ p := by
  induction pieces
  case nil => cases h
  case cons p ps hi =>
    cases ps
    case nil => exact .inr ⟨p, List.mem_singleton_self p, by simpa using h⟩
    case cons =>
      rw [List.intercalate_cons_cons, List.append_assoc] at h
      rcases List.mem_append.mp h with h | h
      case inl => exact .inr ⟨p, List.mem_cons_self, h⟩
      case inr =>
        rcases List.mem_cons.mp h with h | h
        · exact .inl h
        · exact (hi h).imp_right fun ⟨q, hq, h⟩ => ⟨q, List.mem_cons_of_mem _ hq, h⟩

theorem mem_formText {fields : List (String × String)} (h : c ∈ (formText fields).toList) :
    isFormChar c ∨ c = '=' ∨ c = '&' := by
  rw [toList_formText] at h
  rcases mem_intercalate h with h | ⟨p, hp, h⟩
  case inl => exact .inr (.inr h)
  case inr =>
    obtain ⟨f, _, rfl⟩ := List.mem_map.mp hp
    exact (mem_fieldText h).imp_right .inl

-- The fields of a written form are those that have been written, if none is empty.
theorem formFields_formText {fields : List (String × String)} (h : ∀ f ∈ fields, f.2 ≠ "") :
    formFields (formText fields).toList = fields := by
  rw [toList_formText]
  cases fields
  case nil => rfl
  case cons f fs =>
    have hs : ∀ p ∈ (f :: fs).map fieldText, '&' ∉ p := by
      intro p hp hm
      obtain ⟨g, _, rfl⟩ := List.mem_map.mp hp
      revert hm
      exact fun hm => (mem_fieldText hm).elim (by decide) (by decide)
    rw [formFields, splitAt_intercalate (by simp) hs, List.filterMap_map]
    refine (List.filterMap_congr fun g hg => ?_).trans List.filterMap_some
    have he : ∀ c ∈ formEncode g.1, decide (c ≠ '=') = true := by
      intro c hc
      have := isFormChar_of_mem hc
      refine decide_eq_true ?_
      rintro rfl
      exact absurd this (by decide)
    have hn := formEncode_ne_nil (h g hg)
    simp only [Function.comp_apply, fieldText, List.takeWhile_append_of_pos he, List.dropWhile_append_of_pos he]
    simp [hn, formDecode_formEncode]

/-! ## The first value of a field -/

-- A piece of a form that gives a field a value. A piece without a value gives none.
def Gives (piece : List Char) (name value : String) : Prop :=
  ∃ a b, piece = a ++ '=' :: b ∧ '=' ∉ a ∧ b ≠ [] ∧ formDecode a = name ∧ formDecode b = value

-- The first value that a form gives a field, in whichever of its pieces.
def FirstValue (form : List Char) (name value : String) : Prop :=
  ∃ before piece behind, form = ['&'].intercalate (before ++ piece :: behind) ∧
    (∀ p ∈ before ++ piece :: behind, '&' ∉ p) ∧ Gives piece name value ∧ ∀ p ∈ before, ∀ v, ¬Gives p name v

def fieldOf? (piece : List Char) : Option (String × String) :=
  let name := piece.takeWhile (· ≠ '=')
  let value := (piece.dropWhile (· ≠ '=')).drop 1
  if value.isEmpty then none else some (formDecode name, formDecode value)

theorem gives_iff {piece : List Char} {name value : String} :
    Gives piece name value ↔ fieldOf? piece = some (name, value) := by
  constructor
  case mp =>
    rintro ⟨a, b, rfl, ha, hb, rfl, rfl⟩
    have he : ∀ c ∈ a, decide (c ≠ '=') = true := fun c hc => decide_eq_true fun he => ha (he ▸ hc)
    simp only [fieldOf?, List.takeWhile_append_of_pos he, List.dropWhile_append_of_pos he]
    simp [hb]
  case mpr =>
    intro h
    dsimp only [fieldOf?] at h
    split at h
    case isTrue => cases h
    case isFalse hb =>
      cases h
      have hp := List.takeWhile_append_dropWhile (p := fun c : Char => decide (c ≠ '=')) (l := piece)
      cases hd : piece.dropWhile (· ≠ '=') <;> rw [hd] at hb hp
      case nil => exact absurd rfl hb
      case cons c b =>
        have hc : c = '=' := by
          have := List.head?_dropWhile_not (fun c : Char => decide (c ≠ '=')) piece
          rw [hd] at this
          simpa using this
        subst hc
        refine ⟨_, b, hp.symm, fun hm => ?_, by simpa using hb, rfl, rfl⟩
        simpa using List.mem_takeWhile_imp hm

-- The reader of forms finds the first value.
theorem firstValue_iff {form : List Char} {name value : String} :
    FirstValue form name value ↔ fieldValue? (formFields form) name = some value := by
  have hf : formFields form = (splitAt '&' form).filterMap fieldOf? := rfl
  have hg (p : List Char) : (fieldOf? p).any (·.1 = name) = true ↔ ∃ v, Gives p name v := by
    simp only [gives_iff, Option.any_eq_true, decide_eq_true_eq, Prod.exists]
    exact ⟨fun ⟨_, v, h, he⟩ => ⟨v, he ▸ h⟩, fun ⟨v, h⟩ => ⟨_, v, h, rfl⟩⟩
  have hn (p : List Char) : (!(fieldOf? p).any (·.1 = name)) = true ↔ ∀ v, ¬Gives p name v := by
    rw [Bool.not_eq_true', Bool.eq_false_iff, ne_eq, hg, not_exists]
  rw [fieldValue?, hf, List.find?_filterMap]
  simp only [Option.map_eq_some_iff, Option.bind_eq_some_iff, List.find?_eq_some_iff_append, hg, hn]
  constructor
  case mp =>
    rintro ⟨before, piece, behind, rfl, ha, hv, hb⟩
    have hs : splitAt '&' _ = _ := splitAt_intercalate (by simp) ha
    exact ⟨_, ⟨piece, ⟨⟨value, hv⟩, before, behind, hs, hb⟩, gives_iff.mp hv⟩, rfl⟩
  case mpr =>
    rintro ⟨⟨_, _⟩, ⟨piece, ⟨⟨v, hv⟩, before, behind, hs, hb⟩, hp⟩, rfl⟩
    rw [gives_iff.mp hv] at hp
    cases hp
    refine ⟨before, piece, behind, ?_, fun p hp => notMem_splitAt (s := form) (hs ▸ hp), hv, hb⟩
    rw [← hs, intercalate_splitAt]

-- A form gives a field at most one first value.
theorem FirstValue.unique {form : List Char} {name v w : String} (hv : FirstValue form name v)
    (hw : FirstValue form name w) : v = w := by
  rw [firstValue_iff] at hv hw
  exact Option.some.inj (hv.symm.trans hw)

theorem fieldValue?_eq_none_iff {form : List Char} {name : String} :
    fieldValue? (formFields form) name = none ↔ ∀ v, ¬FirstValue form name v := by
  simp only [firstValue_iff, Option.eq_none_iff_forall_ne_some, ne_eq]

end LabelPlaylists.Web
