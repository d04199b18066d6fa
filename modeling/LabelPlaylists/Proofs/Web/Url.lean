import LabelPlaylists.Proofs.Web.Form
import LabelPlaylists.Text.Blank
import LabelPlaylists.Web.Url

namespace LabelPlaylists.Web

variable {c : Char} {s front q : List Char}

-- What is read of a URL: not the blanks and control characters in front of it, nor tabs and line breaks.
def cleaned (url : String) : List Char :=
  (url.toList.dropWhile fun c => c.toNat ≤ 32).filter fun c => c ≠ '\t' ∧ c ≠ '\r' ∧ c ≠ '\n'

-- What stands behind the first question mark, up to the first number sign; nothing if the question mark
-- comes later or not at all.
def marked (s : List Char) : List Char := ((s.takeWhile (· ≠ '#')).dropWhile (· ≠ '?')).drop 1

def endsLocation (c : Char) : Bool := c = '/' || c = '?' || c = '#'

-- The network location of a URL: what stands behind its scheme, if it has one, and two slashes.
def location (url : String) : List Char :=
  match dropScheme (cleaned url) with
  | '/' :: '/' :: more => more.takeWhile (!endsLocation ·)
  | _ => []

theorem marked_append (h : ∀ c ∈ front, c ≠ '?' ∧ c ≠ '#') : marked (front ++ s) = marked s := by
  have hn : ∀ c ∈ front, decide (c ≠ '#') = true := fun c hc => decide_eq_true (h c hc).right
  have hq : ∀ c ∈ front, decide (c ≠ '?') = true := fun c hc => decide_eq_true (h c hc).left
  rw [marked, List.takeWhile_append_of_pos hn, List.dropWhile_append_of_pos hq, marked]

-- A scheme holds no question mark and no number sign.
theorem marked_dropScheme (s : List Char) : marked (dropScheme s) = marked s := by
  have hs := List.takeWhile_append_dropWhile (p := fun c : Char => decide (c ≠ ':')) (l := s)
  unfold dropScheme
  split
  case h_2 => rfl
  case h_1 c rest hd =>
    rw [hd] at hs
    have hc : c = ':' := by
      have := List.head?_dropWhile_not (fun c : Char => decide (c ≠ ':')) s
      rw [hd] at this
      simpa using this
    dsimp only
    split
    case isFalse => rfl
    case isTrue h =>
      have ha := List.all_eq_true.mp (Bool.and_eq_true_iff.mp h).right
      conv_rhs => rw [← hs, ← List.singleton_append, ← List.append_assoc]
      refine (marked_append fun d hd => ?_).symm
      rcases List.mem_append.mp hd with hd | hd
      case inl =>
        have := ha d hd
        constructor <;> rintro rfl <;> exact absurd this (by decide)
      case inr =>
        rw [List.mem_singleton.mp hd, hc]
        decide

-- Neither does a location, which ends before the first of them.
theorem marked_location (s : List Char) :
    marked ('/' :: '/' :: s) = marked (s.dropWhile (!endsLocation ·)) := by
  have hs := List.takeWhile_append_dropWhile (p := (!endsLocation ·)) (l := s)
  conv_lhs => rw [← hs]
  rw [← List.cons_append, ← List.cons_append]
  refine marked_append fun c hc => ?_
  rcases List.mem_cons.mp hc with rfl | hc
  case inl => decide
  rcases List.mem_cons.mp hc with rfl | hc
  case inl => decide
  have := List.mem_takeWhile_imp hc
  constructor <;> rintro rfl <;> exact absurd this (by decide)

theorem location_eq_nil {url : String} (h : ∀ more, dropScheme (cleaned url) ≠ '/' :: '/' :: more) :
    location url = [] := by
  unfold location
  split
  case h_1 more hm => exact absurd hm (h more)
  case h_2 => rfl

-- The query of a URL is what stands behind the first question mark, up to the first number sign, whatever stands
-- before it. Only a bad network location is refused.
theorem query?_eq (url : String) :
    query? url = if isLocation (location url) then some (marked (cleaned url)) else none := by
  rw [← marked_dropScheme]
  unfold query?
  dsimp only
  split
  case h_1 more h =>
    have h : dropScheme (cleaned url) = '/' :: '/' :: more := h
    rw [location, h, marked_location]
    rfl
  case h_2 h =>
    rw [location_eq_nil h]
    rfl

/-! ## URLs in parts -/

def isVisible (c : Char) : Bool := 32 < c.toNat && c.toNat < 128

theorem isVisible_of_isFormChar (h : isFormChar c) : isVisible c := by
  simp only [isFormChar, Bool.or_eq_true, decide_eq_true_eq] at h
  rcases h with (h | rfl) | rfl
  case inl.inl =>
    have ha := isUnreserved_ascii h
    have hall : ∀ n < 33, isUnreserved (Char.ofNat n) = false := by decide
    refine Bool.and_eq_true_iff.mpr ⟨decide_eq_true (Nat.lt_of_not_le fun hl => ?_), decide_eq_true ha⟩
    have := hall c.toNat (Nat.lt_succ_of_le hl)
    rw [Char.ofNat_toNat, h] at this
    cases this
  all_goals decide

theorem isVisible_of_mem_formText {fields : List (String × String)} (h : c ∈ (formText fields).toList) :
    isVisible c := by
  rcases mem_formText h with h | rfl | rfl
  case inl => exact isVisible_of_isFormChar h
  all_goals decide

theorem not_isBlank_of_isVisible (h : isVisible c) : ¬Text.isBlank c := by
  simp only [isVisible, Bool.and_eq_true, decide_eq_true_eq] at h
  simp only [Text.isBlank, Text.Ranges.has_iff, Text.blankRanges, List.mem_cons, List.not_mem_nil, or_false,
    exists_eq_or_imp, exists_eq_left]
  omega

theorem cleaned_eq {url : String} (h : ∀ c ∈ url.toList, isVisible c) : cleaned url = url.toList := by
  have hd : url.toList.dropWhile (fun c => c.toNat ≤ 32) = url.toList := by
    refine List.dropWhile_eq_self_iff.mpr fun hl hc => ?_
    have := h _ (List.getElem_mem hl)
    simp only [isVisible, Bool.and_eq_true, decide_eq_true_eq] at this hc
    omega
  rw [cleaned, hd, List.filter_eq_self]
  refine fun c hc => decide_eq_true ⟨?_, ?_, ?_⟩ <;> rintro rfl <;> exact absurd (h _ hc) (by decide)

theorem marked_cons (h : '#' ∉ q) : marked ('?' :: q) = q := by
  have hn : ∀ c ∈ '?' :: q, decide (c ≠ '#') = true := by
    intro c hc
    refine decide_eq_true ?_
    rintro rfl
    exact (List.mem_cons.mp hc).elim (by decide) h
  rw [marked, List.takeWhile_eq_self_iff.mpr hn]
  rfl

-- A URL without a query, in its parts.
structure Plain (url : String) (scheme host path : List Char) : Prop where
  parts   : url.toList = scheme ++ ':' :: '/' :: '/' :: (host ++ '/' :: path)
  visible : url.toList.all isVisible
  alpha   : scheme.head?.any Char.isAlpha
  scheme  : scheme.all isSchemeChar
  address : isLocation host
  host    : host.all (!endsLocation ·)
  path    : path.all fun c => c ≠ '?' ∧ c ≠ '#'

namespace Plain

variable {url : String} {scheme host path : List Char}

theorem isVisible (h : Plain url scheme host path) (fields : List (String × String)) :
    ∀ c ∈ (url ++ "?" ++ formText fields).toList, Web.isVisible c := by
  intro c hc
  rw [String.toList_append, String.toList_append] at hc
  rcases List.mem_append.mp hc with hc | hc
  case inr => exact isVisible_of_mem_formText hc
  case inl =>
    rcases List.mem_append.mp hc with hc | hc
    case inl => exact List.all_eq_true.mp h.visible c hc
    case inr => exact List.mem_singleton.mp hc ▸ by decide

-- The query that has been put behind a URL is found there.
theorem query?_eq (h : Plain url scheme host path) (fields : List (String × String)) :
    query? (url ++ "?" ++ formText fields) = some (formText fields).toList := by
  have hscheme := List.all_eq_true.mp h.scheme
  have hhost := List.all_eq_true.mp h.host
  have hpath : ∀ c ∈ path, c ≠ '?' ∧ c ≠ '#' := fun c hc => of_decide_eq_true (List.all_eq_true.mp h.path c hc)
  generalize hq : (formText fields).toList = q
  have hn : '#' ∉ q := by
    intro hm
    rcases mem_formText (hq ▸ hm) with h | h | h <;> revert h <;> decide
  have hslash : (!endsLocation '/') = false := rfl
  have he : (url ++ "?" ++ formText fields).toList = scheme ++ ':' :: '/' :: '/' :: (host ++ '/' :: path ++ '?' :: q) := by
    simp [h.parts, hq]
  have hd : dropScheme (cleaned (url ++ "?" ++ formText fields)) = '/' :: '/' :: (host ++ '/' :: path ++ '?' :: q) := by
    have hc : ∀ c ∈ scheme, decide (c ≠ ':') = true := by
      intro c hc
      refine decide_eq_true ?_
      rintro rfl
      exact absurd (hscheme _ hc) (by decide)
    rw [cleaned_eq (h.isVisible fields), he, dropScheme, List.takeWhile_append_of_pos hc, List.dropWhile_append_of_pos hc]
    simp [h.alpha, h.scheme]
  have hl : location (url ++ "?" ++ formText fields) = host := by
    simp [location, hd, List.takeWhile_append_of_pos hhost, hslash]
  have hm : marked (cleaned (url ++ "?" ++ formText fields)) = q := by
    have hw : (host ++ '/' :: path ++ '?' :: q).dropWhile (!endsLocation ·) = '/' :: path ++ '?' :: q := by
      simp [List.dropWhile_append_of_pos hhost, hslash]
    rw [← marked_dropScheme, hd, marked_location, hw, marked_append, marked_cons hn]
    exact List.forall_mem_cons.mpr ⟨by decide, hpath⟩
  rw [Web.query?_eq, hl, if_pos h.address, hm]

end Plain

end LabelPlaylists.Web
