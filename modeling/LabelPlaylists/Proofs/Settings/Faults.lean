import LabelPlaylists.Proofs.Settings.Loaded

namespace LabelPlaylists.Settings

open Yaml (Value Content)

variable {base : Path.Base} {es fields : Entries} {f : Field} {v : Option Value} {d t : String} {q : Problem}
  {e : Environment} {c : Content} {found : Source} {isAskedFor : Bool} {path : String}

/-! ## Fields one after the other -/

-- What a field may hold, with what is taken if it holds nothing.
inductive Kind where
  | text
  | textOr (default : String)
  | pathOr (default : String)
  | countOr (default : Int)

-- The fields in the order in which they are looked at.
def kinds : List (Field × Kind) :=
  [(clientIdField, .text), (clientSecretField, .text), (redirectUriField, .textOr defaultRedirectUri),
    (libraryField, .pathOr defaultLibrary), (maxWorkersField, .countOr 4), (requestTimeoutField, .countOr 10),
    (logsField, .pathOr defaultLogs)]

namespace Kind

variable {k : Kind}

def Admits (base : Path.Base) : Kind → Option Value → Prop
  | .text, v => ∃ t, IsText v t
  | .textOr d, v => ∃ t, IsTextOr d v t
  | .pathOr d, v => ∃ p, IsPathOr base d v p
  | .countOr m, v => ∃ n, IsCountOr m v n

def check (base : Path.Base) (f : Field) (fields : Entries) : Kind → Except Problem Unit
  | .text => (Settings.text fields f).map fun _ => ()
  | .textOr d => (Settings.textOr fields f d).map fun _ => ()
  | .pathOr d => (Settings.pathOr base fields f d).map fun _ => ()
  | .countOr m => (positiveOr fields f m).map fun _ => ()

theorem map_eq_ok_iff {x : Except Problem α} : x.map (fun _ => ()) = .ok () ↔ ∃ a, x = .ok a := by
  cases x <;> simp [Except.map]

theorem map_eq_error_iff {x : Except Problem α} : x.map (fun _ => ()) = .error q ↔ x = .error q := by
  cases x <;> simp [Except.map]

theorem check_eq_ok_iff : k.check base f fields = .ok () ↔ k.Admits base (present (Value.get? fields f.name)) := by
  cases k
  case text    => simp only [check, Admits, map_eq_ok_iff, text_eq_ok_iff]
  case textOr  => simp only [check, Admits, map_eq_ok_iff, textOr_eq_ok_iff]
  case pathOr  => simp only [check, Admits, map_eq_ok_iff, pathOr_eq_ok_iff]
  case countOr => simp only [check, Admits, map_eq_ok_iff, positiveOr_eq_ok_iff]

theorem eq_badText_of_text (h : Settings.text fields f = .error q) : q = .badText f := by
  unfold Settings.text at h
  split at h
  case h_1 => split at h <;> cases h; rfl
  case h_2 => cases h; rfl

theorem eq_badText_of_textOr (h : Settings.textOr fields f d = .error q) : q = .badText f := by
  unfold Settings.textOr at h
  split at h
  case h_1 | h_2 => cases h
  case h_3 => exact eq_badText_of_text h

theorem eq_badNumber_of_positiveOr (h : positiveOr fields f m = .error q) : ∃ w, q = .badNumber f w := by
  unfold positiveOr at h
  split at h
  case h_1 | h_2 => cases h
  case h_3 => split at h <;> cases h; exact ⟨_, rfl⟩
  case h_4 => cases h; exact ⟨_, rfl⟩

-- Of what may be wrong with a field, only that its path leads nowhere is not reported.
theorem exists_unreported_check_iff :
    (∃ q, k.check base f fields = .error q ∧ ¬q.isReported) ↔
      ∃ d t, k = .pathOr d ∧ IsTextOr d (present (Value.get? fields f.name)) t ∧ Path.LeadsNowhere base t := by
  simp only [← textOr_eq_ok_iff]
  constructor
  case mp =>
    rintro ⟨q, hq, hr⟩
    cases k
    case text    => cases eq_badText_of_text (map_eq_error_iff.mp hq); exact absurd rfl hr
    case textOr  => cases eq_badText_of_textOr (map_eq_error_iff.mp hq); exact absurd rfl hr
    case countOr =>
      have ⟨_, h⟩ := eq_badNumber_of_positiveOr (map_eq_error_iff.mp hq)
      exact absurd (h ▸ rfl) hr
    case pathOr d =>
      rcases bind_eq_error_iff.mp (map_eq_error_iff.mp hq) with h | ⟨t, ht, h⟩
      case inl => cases eq_badText_of_textOr h; exact absurd rfl hr
      case inr =>
        split at h
        case h_1 => cases h
        case h_2 fault hf => exact ⟨d, t, rfl, ht, Path.exists_ofText_eq_error_iff.mp ⟨fault, hf⟩⟩
  case mpr =>
    rintro ⟨d, t, rfl, ht, hl⟩
    have ⟨fault, hf⟩ := Path.exists_ofText_eq_error_iff.mpr hl
    exact ⟨.badPath fault, map_eq_error_iff.mpr (bind_eq_error_iff.mpr (.inr ⟨t, ht, by rw [hf]⟩)), nofun⟩

end Kind

theorem map_bind_bind {x : Except Problem Entries} {read : Entries → Except Problem α} {g : α → Except Problem β}
    {rest : Except Problem Unit} (h : ∀ a, (g a).map (fun _ => ()) = rest) :
    ((x >>= read) >>= g).map (fun _ => ()) = (x >>= fun fields => (read fields).map fun _ => ()) >>= fun _ => rest := by
  cases x
  case error => rfl
  case ok fields =>
    change (read fields >>= g).map _ = (read fields).map _ >>= _
    cases read fields
    case error => rfl
    case ok a  => exact h a

-- Apart from what is drawn from them, the fields are checked one after the other.
theorem map_ofEntries (base : Path.Base) (es : Entries) :
    (ofEntries base es).map (fun _ => ()) =
      kinds.forM fun x => fieldsOf es x.1.sectionName >>= (x.2.check base x.1 ·) := by
  rw [ofEntries_eq]
  exact map_bind_bind fun _ => map_bind_bind fun _ => map_bind_bind fun _ => map_bind_bind fun _ =>
    map_bind_bind fun _ => map_bind_bind fun _ => map_bind_bind fun _ => rfl

/-! ## Problems that break the program off -/

-- A field whose section can be used, and that is given nothing but what it may hold.
def Fits (base : Path.Base) (e : Environment) (c : Content) (x : Field × Kind) : Prop :=
  IsUsable e c x.1.sectionName ∧ x.2.Admits base (given e c x.1)

theorem mem_allFields {x : Field × Kind} (hx : x ∈ kinds) : x.1 ∈ allFields := by
  have : kinds.map (·.1) = allFields := rfl
  exact this ▸ List.mem_map_of_mem hx

-- The path that is taken where none is given leads somewhere.
theorem not_leadsNowhere_default (h : (f, .pathOr d) ∈ kinds) : ¬Path.LeadsNowhere base d := by
  have hd : d = defaultLibrary ∨ d = defaultLogs := by
    simp only [kinds, List.mem_cons, Prod.mk.injEq, reduceCtorEq, Kind.pathOr.injEq, List.not_mem_nil] at h
    grind
  have hu : Path.user? d = some "" := by rcases hd with rfl | rfl <;> decide +kernel
  have hf : ∀ n ∈ Path.followed d, '\x00' ∉ n.toList := by rcases hd with rfl | rfl <;> decide +kernel
  rintro (⟨name, hn, hh⟩ | ⟨n, hn, h⟩)
  case inl =>
    cases hu.symm.trans hn
    exact nomatch hh
  case inr => exact hf n hn h

-- A file is unreadable if it is no text, or if it holds values that cannot be.
def IsUnreadable (octets : List Nat) : Prop :=
  (∀ s, octets ≠ Text.Utf8.unitsOf s) ∨
    ∃ s f, octets = Text.Utf8.unitsOf s ∧ Content.ofText (String.ofList s) = .error f ∧ f ≠ .malformed

theorem exists_unreported_entries_iff (path : String) (isAskedFor : Bool) :
    (∃ q, entries path isAskedFor found = .error q ∧ ¬q.isReported) ↔
      ∃ octets, found = .file octets ∧ IsUnreadable octets := by
  cases found
  case nothing => cases isAskedFor <;> simp [entries, Problem.isReported]
  case directory => simp [entries, Problem.isReported]
  case file octets =>
    simp only [Source.file.injEq, exists_eq_left', entries, entriesOf, IsUnreadable]
    rcases hs : Text.Utf8.strict? 0 octets with _ | s
    case none =>
      have hn (s : List Char) (h : octets = Text.Utf8.unitsOf s) : False := by
        cases hs.symm.trans (Text.Utf8.strict?_eq_some_iff.mpr h)
      exact ⟨fun _ => .inl hn, fun _ => ⟨_, rfl, Bool.false_ne_true⟩⟩
    case some =>
      have hu (t : List Char) : octets = Text.Utf8.unitsOf t ↔ s = t := by
        rw [← Text.Utf8.strict?_eq_some_iff, hs, Option.some.injEq]
      simp only [ne_eq, hu]
      cases hc : Content.ofText (String.ofList s)
      case error f => simp [hc, Problem.isReported]
      case ok c =>
        simp only
        split <;> simp [hc, Problem.isReported]

section Entries

variable {x : Field × Kind} (ht : Tells es e c) (hx : x ∈ kinds)

include ht hx

theorem check_section_eq_ok_iff :
    (fieldsOf es x.1.sectionName >>= (x.2.check base x.1 ·)) = .ok () ↔ Fits base e c x := by
  have ⟨hu, hn⟩ := ht x.1 (mem_allFields hx)
  rw [fieldsOf_bind_eq_ok_iff (R := fun v _ => x.2.Admits base v) Kind.check_eq_ok_iff, Fits]
  by_cases h : IsUsable e c x.1.sectionName
  case pos => simp [h, hu h]
  case neg => simp [h, hn h]

theorem exists_unreported_section_iff :
    (∃ q, (fieldsOf es x.1.sectionName >>= (x.2.check base x.1 ·)) = .error q ∧ ¬q.isReported) ↔
      IsUsable e c x.1.sectionName ∧
        ∃ d t, x.2 = .pathOr d ∧ IsTextOr d (given e c x.1) t ∧ Path.LeadsNowhere base t := by
  have ⟨hu, hn⟩ := ht x.1 (mem_allFields hx)
  unfold said at hu hn
  by_cases h : IsUsable e c x.1.sectionName
  case pos =>
    have hu := hu h
    cases hf : fieldsOf es x.1.sectionName
    case error => exact nomatch hf ▸ hu
    case ok fields =>
      have hg : present (Value.get? fields x.1.name) = given e c x.1 := Except.ok.inj (hf ▸ hu)
      simp only [h, true_and, ← hg]
      exact Kind.exists_unreported_check_iff
  case neg =>
    have hn := hn h
    cases hf : fieldsOf es x.1.sectionName
    case ok => exact nomatch hf ▸ hn
    case error q =>
      have hq : q = .badSection x.1.sectionName := Except.error.inj (hf ▸ hn)
      simp only [h, false_and, iff_false, not_exists, not_and, not_not]
      rintro _ ⟨⟩
      exact hq ▸ rfl

end Entries

-- The first field that does not fit, in the order in which they are looked at, is given a path that leads nowhere.
def IsAstray (base : Path.Base) (e : Environment) (c : Content) : Prop :=
  ∃ before f d after t, kinds = before ++ (f, .pathOr d) :: after ∧ (∀ x ∈ before, Fits base e c x) ∧
    IsUsable e c f.sectionName ∧ IsText (given e c f) t ∧ Path.LeadsNowhere base t

theorem exists_unreported_ofEntries_iff (ht : Tells es e c) :
    (∃ q, ofEntries base es = .error q ∧ ¬q.isReported) ↔ IsAstray base e c := by
  have hq (q : Problem) : ofEntries base es = .error q ↔ (ofEntries base es).map (fun _ => ()) = .error q :=
    Kind.map_eq_error_iff.symm
  simp only [hq, map_ofEntries, forM_eq_error_iff]
  constructor
  case mp =>
    rintro ⟨q, ⟨before, x, after, hk, hb, hx⟩, hr⟩
    have hm : x ∈ kinds := by simp [hk]
    have ⟨hu, d, t, hd, hv, hl⟩ := (exists_unreported_section_iff ht hm).mp ⟨q, hx, hr⟩
    have hx : x = (x.1, .pathOr d) := hd ▸ rfl
    refine ⟨before, x.1, d, after, t, hx ▸ hk, fun y hy => ?_, hu, ?_, hl⟩
    case refine_1 => exact (check_section_eq_ok_iff ht (by simp [hk, hy])).mp (hb y hy)
    case refine_2 =>
      rcases hv with ⟨_, rfl⟩ | hv
      case inl => exact absurd hl (not_leadsNowhere_default (hx ▸ hm))
      case inr => exact hv
  case mpr =>
    rintro ⟨before, f, d, after, t, hk, hb, hu, hv, hl⟩
    have hm : (f, Kind.pathOr d) ∈ kinds := by simp [hk]
    have ⟨q, hq, hr⟩ := (exists_unreported_section_iff ht hm).mpr ⟨hu, d, t, rfl, .inr hv, hl⟩
    refine ⟨q, ⟨before, _, after, hk, fun y hy => ?_, hq⟩, hr⟩
    exact (check_section_eq_ok_iff ht (by simp [hk, hy])).mpr (hb y hy)

example : (load ⟨[], [], []⟩ [] "config.yaml" true (.file [0xFF])) = .error .notText := rfl

end LabelPlaylists.Settings
