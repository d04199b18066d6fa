import LabelPlaylists.Sql.Datum
import Mathlib.Data.List.TakeWhile

namespace LabelPlaylists.Text

-- A text without a null.
def IsPlain (s : String) : Prop := ∀ c ∈ s.toList, c.toNat ≠ 0

instance {s : String} : Decidable (IsPlain s) := List.decidableBAll _ _

-- The octets of one character.
def charOctets (c : Char) : List Char :=
  (String.utf8EncodeChar c).map fun b => Char.ofNat b.toNat

theorem toList_data (bs : ByteArray) : bs.toList = bs.data.toList := by
  have loop (i : Nat) (r : List UInt8) :
      ByteArray.toList.loop bs i r = r.reverse ++ bs.data.toList.drop i := by
    fun_induction ByteArray.toList.loop bs i r
    case case1 i r h hi =>
      have hl : i < bs.data.toList.length := h
      rw [hi, List.drop_eq_getElem_cons hl, List.reverse_cons, List.append_assoc]
      simp [ByteArray.get!, h]
    case case2 i r h =>
      rw [List.drop_eq_nil_of_le (Nat.le_of_not_lt h), List.append_nil]
  exact loop 0 []

theorem octets_eq (s : String) : octets s = s.toList.flatMap charOctets := by
  unfold octets charOctets
  rw [toList_data, String.toUTF8_eq_toByteArray, ← String.utf8Encode_toList, List.utf8Encode,
    List.toList_data_toByteArray, List.map_flatMap]

theorem toNat_ofNat {n : Nat} (h : n < 256) : (Char.ofNat n).toNat = n := by
  have hv : n.isValidChar := .inl (by omega)
  rw [Char.ofNat, dif_pos hv]
  rfl

theorem charOctets_ascii {c : Char} (h : c.toNat < 128) : charOctets c = [c] := by
  have hv : c.val.toNat ≤ 127 := Nat.le_of_lt_succ h
  unfold charOctets String.utf8EncodeChar
  rw [if_pos hv, List.map_singleton, UInt8.toNat_ofNat', Nat.mod_eq_of_lt (by omega)]
  exact congrArg (· :: []) (Char.ofNat_toNat c)

theorem charOctets_high {c o : Char} (h : 128 ≤ c.toNat) (ho : o ∈ charOctets c) :
    128 ≤ o.toNat := by
  have ⟨b, hb, he⟩ := List.mem_map.mp ho
  have hn : 128 ≤ b.toNat := by
    have hv : ¬c.val.toNat ≤ 127 := Nat.not_le_of_lt h
    simp only [String.utf8EncodeChar, if_neg hv] at hb
    split at hb <;> try split at hb
    all_goals
      simp only [List.mem_cons, List.not_mem_nil, or_false] at hb
      rcases hb with rfl | rfl | rfl | rfl
      all_goals
        rw [UInt8.toNat_ofNat']
        omega
  rw [← he, toNat_ofNat b.toNat_lt]
  exact hn

theorem toLower_ascii {c : Char} (h : c.toNat < 128) :
    c.toLower.toNat < 128 ∧ (c.toLower.toNat = 0 ↔ c.toNat = 0) := by
  have hall : ∀ n < 128, (Char.ofNat n).toLower.toNat < 128 ∧
      ((Char.ofNat n).toLower.toNat = 0 ↔ n = 0) := by decide
  have hc := hall c.toNat h
  rwa [Char.ofNat_toNat] at hc

theorem toLower_high {c : Char} (h : 128 ≤ c.toNat) : c.toLower = c := by
  unfold Char.toLower
  rw [dif_neg]
  intro ⟨_, hz⟩
  exact absurd (Nat.le_trans h hz) (by decide)

theorem toLower_eq_null_iff {c : Char} : c.toLower.toNat = 0 ↔ c.toNat = 0 := by
  by_cases h : c.toNat < 128
  case pos => exact (toLower_ascii h).right
  case neg => rw [toLower_high (Nat.le_of_not_lt h)]

theorem fold_charOctets (c : Char) : fold (charOctets c) = charOctets c.toLower := by
  by_cases h : c.toNat < 128
  case pos =>
    rw [charOctets_ascii h, charOctets_ascii (toLower_ascii h).left]
    rfl
  case neg =>
    have h := Nat.le_of_not_lt h
    rw [toLower_high h, fold, List.map_congr_left fun o ho => toLower_high (charOctets_high h ho),
      List.map_id']

theorem fold_octets (s : String) : fold (octets s) = octets (folded s) := by
  rw [octets_eq, octets_eq, folded, String.toList_ofList, fold, fold, List.map_flatMap,
    List.flatMap_map]
  exact congrArg (List.flatMap · s.toList) (funext fold_charOctets)

theorem octets_injective {s t : String} (h : octets s = octets t) : s = t := by
  unfold octets at h
  have hi (a b : UInt8) (he : Char.ofNat a.toNat = Char.ofNat b.toNat) : a = b := by
    rw [← UInt8.toNat_inj, ← toNat_ofNat a.toNat_lt, ← toNat_ofNat b.toNat_lt]
    exact congrArg Char.toNat he
  have hl := (List.map_inj_right hi).mp h
  rw [toList_data, toList_data, Array.toList_inj] at hl
  exact String.toByteArray_inj.mp (ByteArray.ext hl)

theorem IsPlain.octets {s : String} (h : IsPlain s) : ∀ o ∈ octets s, o.toNat ≠ 0 := by
  rw [octets_eq]
  intro o ho
  have ⟨c, hc, ho⟩ := List.mem_flatMap.mp ho
  by_cases hn : c.toNat < 128
  case pos =>
    rw [charOctets_ascii hn, List.mem_singleton] at ho
    exact ho ▸ h c hc
  case neg =>
    have := charOctets_high (Nat.le_of_not_lt hn) ho
    omega

-- The comparison of the store stops at a null, which a plain text does not have.
theorem IsPlain.sameText_iff {s t : String} (h : IsPlain s) :
    Datum.sameText s t ↔ sameFolded s t := by
  have hp {l : List Char} (hl : ∀ o ∈ l, o.toNat ≠ 0) : l.takeWhile (·.toNat ≠ 0) = l :=
    List.takeWhile_eq_self_iff.mpr fun o ho => decide_eq_true (hl o ho)
  have hf : sameFolded s t ↔ fold (Text.octets s) = fold (Text.octets t) := by
    rw [fold_octets, fold_octets, sameFolded_iff]
    exact ⟨fun he => congrArg (fun l => Text.octets (String.ofList l)) he,
      fun he => String.ofList_injective (octets_injective he)⟩
  rw [hf]
  simp only [Datum.sameText, hp h.octets, Bool.and_eq_true, decide_eq_true_eq, beq_iff_eq]
  constructor
  case mp =>
    intro ⟨hl, he⟩
    have hn : ((Text.octets t).takeWhile (·.toNat ≠ 0)).length = (Text.octets t).length := by
      rw [← hl]
      simpa [fold] using (congrArg List.length he).symm
    rwa [(List.takeWhile_prefix _).eq_of_length hn] at he
  case mpr =>
    intro he
    have hn : ∀ o ∈ Text.octets t, o.toNat ≠ 0 := by
      intro o ho hz
      have ho := List.mem_map_of_mem (f := Char.toLower) ho
      rw [← fold, ← he] at ho
      have ⟨o', ho', hl⟩ := List.mem_map.mp ho
      exact h.octets o' ho' (toLower_eq_null_iff.mp (hl ▸ toLower_eq_null_iff.mpr hz))
    rw [hp hn]
    exact ⟨by simpa [fold] using congrArg List.length he, he⟩

theorem sameText_comm (s t : String) : Datum.sameText s t = Datum.sameText t s := by
  unfold Datum.sameText
  dsimp only
  rw [decide_eq_decide.mpr eq_comm, Bool.beq_comm]

-- One plain text is enough.
theorem sameText_iff {s t : String} (h : IsPlain s ∨ IsPlain t) :
    Datum.sameText s t ↔ fold s.toList = fold t.toList := by
  rcases h with h | h
  case inl => rw [h.sameText_iff, sameFolded_iff]
  case inr => rw [sameText_comm, h.sameText_iff, sameFolded_iff, eq_comm]

end LabelPlaylists.Text
