import LabelPlaylists.Proofs.Settings.Fields
import LabelPlaylists.Proofs.Settings.Path
import LabelPlaylists.Proofs.Text.Blank

namespace LabelPlaylists.Settings

open Yaml (Value Content)

variable {base : Path.Base} {es fields : Entries} {f : Field} {v : Option Value} {d t : String} {m n : Int} {p : Path}
  {s : Settings} {e : Environment} {c : Content} {found : Source} {isAskedFor : Bool} {path : String}

/-! ## Values of fields -/

-- A text that is given, without the blanks around it.
def IsText (v : Option Value) (t : String) : Prop := ∃ s, v = some (.text s) ∧ Text.trimmed s = t ∧ t ≠ ""

def IsTextOr (d : String) (v : Option Value) (t : String) : Prop := (v = none ∧ t = d) ∨ IsText v t

def IsPathOr (base : Path.Base) (d : String) (v : Option Value) (p : Path) : Prop :=
  ∃ t, IsTextOr d v t ∧ Path.ofText base t = .ok p

-- A whole number above zero that is given.
def IsCountOr (m : Int) (v : Option Value) (n : Int) : Prop := (v = none ∧ n = m) ∨ (v = some (.whole n) ∧ 1 ≤ n)

theorem text_eq_ok_iff : text fields f = .ok t ↔ IsText (present (Value.get? fields f.name)) t := by
  unfold text IsText
  rcases Value.get? fields f.name with _ | v
  case none => simp [present]
  case some =>
    cases v
    case text s =>
      by_cases hs : Text.trimmed s = ""
      case pos => simp +contextual [present, hs]
      case neg =>
        simp only [hs, if_false, Except.ok.injEq, present, Option.some.injEq, Value.text.injEq, exists_eq_left']
        exact ⟨fun h => ⟨h, h ▸ hs⟩, And.left⟩
    all_goals simp [present]

theorem textOr_eq_ok_iff : textOr fields f d = .ok t ↔ IsTextOr d (present (Value.get? fields f.name)) t := by
  unfold IsTextOr
  rw [← text_eq_ok_iff]
  unfold textOr text
  rcases Value.get? fields f.name with _ | v
  case none => simp [present, eq_comm]
  case some =>
    cases v
    case null => simp [present, eq_comm]
    all_goals simp [present]

theorem positiveOr_eq_ok_iff : positiveOr fields f m = .ok n ↔ IsCountOr m (present (Value.get? fields f.name)) n := by
  unfold positiveOr IsCountOr
  rcases Value.get? fields f.name with _ | v
  case none => simp [present, eq_comm]
  case some =>
    cases v
    case null => simp [present, eq_comm]
    case whole k =>
      simp only [present, reduceCtorEq, false_and, false_or, Option.some.injEq, Value.whole.injEq]
      split
      case isTrue hk  => exact ⟨fun h => Except.ok.inj h ▸ ⟨rfl, hk⟩, fun h => congrArg _ h.left⟩
      case isFalse hk =>
        refine ⟨fun h => ?_, fun h => absurd (h.left ▸ h.right) hk⟩
        cases h
    all_goals simp [present]

theorem pathOr_eq_ok_iff : pathOr base fields f d = .ok p ↔ IsPathOr base d (present (Value.get? fields f.name)) p := by
  unfold pathOr IsPathOr
  simp only [bind_eq_ok_iff, textOr_eq_ok_iff]
  refine exists_congr fun t => and_congr_right fun _ => ?_
  cases Path.ofText base t <;> simp

/-! ## Settings -/

-- Settings that are drawn from the values of their fields.
structure Drawn (base : Path.Base) (v : Field → Option Value) (s : Settings) : Prop where
  clientId       : IsText (v clientIdField) s.clientId
  clientSecret   : IsText (v clientSecretField) s.clientSecret
  redirectUri    : IsTextOr defaultRedirectUri (v redirectUriField) s.redirectUri
  library        : IsPathOr base defaultLibrary (v libraryField) s.library
  maxWorkers     : IsCountOr 4 (v maxWorkersField) s.maxWorkers
  requestTimeout : IsCountOr 10 (v requestTimeoutField) s.requestTimeout
  logs           : IsPathOr base defaultLogs (v logsField) s.logs

theorem Drawn.congr {v w : Field → Option Value} (hd : Drawn base v s) (h : ∀ f ∈ allFields, v f = w f) :
    Drawn base w s := by
  simp only [allFields, List.forall_mem_cons] at h
  have ⟨h₁, h₂, h₃, h₄, h₅, h₆, h₇, _⟩ := h
  exact ⟨h₁ ▸ hd.clientId, h₂ ▸ hd.clientSecret, h₃ ▸ hd.redirectUri, h₄ ▸ hd.library, h₅ ▸ hd.maxWorkers,
    h₆ ▸ hd.requestTimeout, h₇ ▸ hd.logs⟩

-- A section may be looked up again for each of its fields.
theorem ofEntries_eq (base : Path.Base) (es : Entries) :
    ofEntries base es = (do
      let clientId ← fieldsOf es clientIdField.sectionName >>= (text · clientIdField)
      let clientSecret ← fieldsOf es clientSecretField.sectionName >>= (text · clientSecretField)
      let redirectUri ← fieldsOf es redirectUriField.sectionName >>= (textOr · redirectUriField defaultRedirectUri)
      let library ← fieldsOf es libraryField.sectionName >>= (pathOr base · libraryField defaultLibrary)
      let maxWorkers ← fieldsOf es maxWorkersField.sectionName >>= (positiveOr · maxWorkersField 4)
      let requestTimeout ← fieldsOf es requestTimeoutField.sectionName >>= (positiveOr · requestTimeoutField 10)
      let logs ← fieldsOf es logsField.sectionName >>= (pathOr base · logsField defaultLogs)
      .ok { clientId, clientSecret, redirectUri, library, maxWorkers, requestTimeout, logs }) := by
  unfold ofEntries
  change _ = (do
    let clientId ← fieldsOf es "spotify" >>= (text · clientIdField)
    let clientSecret ← fieldsOf es "spotify" >>= (text · clientSecretField)
    let redirectUri ← fieldsOf es "spotify" >>= (textOr · redirectUriField defaultRedirectUri)
    let library ← fieldsOf es "database" >>= (pathOr base · libraryField defaultLibrary)
    let maxWorkers ← fieldsOf es "sync" >>= (positiveOr · maxWorkersField 4)
    let requestTimeout ← fieldsOf es "sync" >>= (positiveOr · requestTimeoutField 10)
    let logs ← fieldsOf es "logging" >>= (pathOr base · logsField defaultLogs)
    .ok { clientId, clientSecret, redirectUri, library, maxWorkers, requestTimeout, logs } : Except Problem Settings)
  cases fieldsOf es "spotify"
  case error => rfl
  case ok => cases fieldsOf es "sync" <;> simp only [bind_assoc] <;> rfl

theorem fieldsOf_bind_eq_ok_iff {read : Entries → Except Problem α} {R : Option Value → α → Prop} {a : α}
    (h : ∀ {fields a}, read fields = .ok a ↔ R (present (Value.get? fields f.name)) a) :
    (fieldsOf es f.sectionName >>= read) = .ok a ↔ ∃ v, said es f = .ok v ∧ R v a := by
  unfold said
  cases fieldsOf es f.sectionName
  case error => simp [bind_eq_ok_iff, Except.map]
  case ok => simp [bind_eq_ok_iff, Except.map, h]

theorem ofEntries_eq_ok_iff :
    ofEntries base es = .ok s ↔ ∃ v : Field → Option Value, (∀ f ∈ allFields, said es f = .ok (v f)) ∧ Drawn base v s := by
  rw [ofEntries_eq]
  constructor
  case mp =>
    intro h
    obtain ⟨_, h₁, h⟩ := bind_eq_ok_iff.mp h
    obtain ⟨_, h₂, h⟩ := bind_eq_ok_iff.mp h
    obtain ⟨_, h₃, h⟩ := bind_eq_ok_iff.mp h
    obtain ⟨_, h₄, h⟩ := bind_eq_ok_iff.mp h
    obtain ⟨_, h₅, h⟩ := bind_eq_ok_iff.mp h
    obtain ⟨_, h₆, h⟩ := bind_eq_ok_iff.mp h
    obtain ⟨_, h₇, h⟩ := bind_eq_ok_iff.mp h
    cases h
    obtain ⟨v₁, e₁, r₁⟩ := (fieldsOf_bind_eq_ok_iff text_eq_ok_iff).mp h₁
    obtain ⟨v₂, e₂, r₂⟩ := (fieldsOf_bind_eq_ok_iff text_eq_ok_iff).mp h₂
    obtain ⟨v₃, e₃, r₃⟩ := (fieldsOf_bind_eq_ok_iff textOr_eq_ok_iff).mp h₃
    obtain ⟨v₄, e₄, r₄⟩ := (fieldsOf_bind_eq_ok_iff pathOr_eq_ok_iff).mp h₄
    obtain ⟨v₅, e₅, r₅⟩ := (fieldsOf_bind_eq_ok_iff positiveOr_eq_ok_iff).mp h₅
    obtain ⟨v₆, e₆, r₆⟩ := (fieldsOf_bind_eq_ok_iff positiveOr_eq_ok_iff).mp h₆
    obtain ⟨v₇, e₇, r₇⟩ := (fieldsOf_bind_eq_ok_iff pathOr_eq_ok_iff).mp h₇
    have he {f : Field} {w : Option Value} (h : said es f = .ok w) : (said es f).toOption.join = w := by
      simp [h, Except.toOption]
    refine ⟨fun f => (said es f).toOption.join, ?_, ?_⟩
    case refine_1 => simp [allFields, e₁, e₂, e₃, e₄, e₅, e₆, e₇, Except.toOption]
    case refine_2 =>
      exact ⟨he e₁ ▸ r₁, he e₂ ▸ r₂, he e₃ ▸ r₃, he e₄ ▸ r₄, he e₅ ▸ r₅, he e₆ ▸ r₆, he e₇ ▸ r₇⟩
  case mpr =>
    rintro ⟨v, hv, hd⟩
    simp only [allFields, List.forall_mem_cons] at hv
    obtain ⟨e₁, e₂, e₃, e₄, e₅, e₆, e₇, _⟩ := hv
    refine bind_eq_ok_iff.mpr ⟨_, (fieldsOf_bind_eq_ok_iff text_eq_ok_iff).mpr ⟨_, e₁, hd.clientId⟩, ?_⟩
    refine bind_eq_ok_iff.mpr ⟨_, (fieldsOf_bind_eq_ok_iff text_eq_ok_iff).mpr ⟨_, e₂, hd.clientSecret⟩, ?_⟩
    refine bind_eq_ok_iff.mpr ⟨_, (fieldsOf_bind_eq_ok_iff textOr_eq_ok_iff).mpr ⟨_, e₃, hd.redirectUri⟩, ?_⟩
    refine bind_eq_ok_iff.mpr ⟨_, (fieldsOf_bind_eq_ok_iff pathOr_eq_ok_iff).mpr ⟨_, e₄, hd.library⟩, ?_⟩
    refine bind_eq_ok_iff.mpr ⟨_, (fieldsOf_bind_eq_ok_iff positiveOr_eq_ok_iff).mpr ⟨_, e₅, hd.maxWorkers⟩, ?_⟩
    refine bind_eq_ok_iff.mpr ⟨_, (fieldsOf_bind_eq_ok_iff positiveOr_eq_ok_iff).mpr ⟨_, e₆, hd.requestTimeout⟩, ?_⟩
    exact bind_eq_ok_iff.mpr ⟨_, (fieldsOf_bind_eq_ok_iff pathOr_eq_ok_iff).mpr ⟨_, e₇, hd.logs⟩, rfl⟩

-- What settings are loaded from: a document that can be read, whose sections can be used, and the values that are
-- given for their fields.
theorem load_eq_ok_iff :
    load base e path isAskedFor found = .ok s ↔
      ∃ c, Reads found isAskedFor c ∧ (∀ f ∈ allFields, IsUsable e c f.sectionName) ∧ Drawn base (given e c) s := by
  rw [load, bind_eq_ok_iff]
  constructor
  case mp =>
    rintro ⟨es, he, h⟩
    have ⟨c, hc⟩ := exists_reads_of_entries he
    have ⟨es', he', hs⟩ := overridden_tells path e hc
    cases he.symm.trans he'
    have ⟨v, hv, hd⟩ := ofEntries_eq_ok_iff.mp h
    have hu : ∀ f ∈ allFields, IsUsable e c f.sectionName := by
      intro f hf
      by_contra hu
      exact nomatch (hv f hf).symm.trans ((hs f hf).right hu)
    refine ⟨c, hc, hu, hd.congr fun f hf => ?_⟩
    exact Except.ok.inj ((hv f hf).symm.trans ((hs f hf).left (hu f hf)))
  case mpr =>
    rintro ⟨c, hc, hu, hd⟩
    have ⟨es, he, hs⟩ := overridden_tells path e hc
    exact ⟨es, he, ofEntries_eq_ok_iff.mpr ⟨_, fun f hf => (hs f hf).left (hu f hf), hd⟩⟩

/-! ## What is loaded -/

theorem isTight_of_isText (h : IsText v t) : Text.IsTight t := by
  have ⟨s, _, hs, hn⟩ := h
  exact hs ▸ Text.isTight_trimmed (hs ▸ hn)

theorem isTight_of_isTextOr (hd : Text.IsTight d) (h : IsTextOr d v t) : Text.IsTight t := by
  rcases h with ⟨_, rfl⟩ | h
  case inl => exact hd
  case inr => exact isTight_of_isText h

theorem isTight_defaultRedirectUri : Text.IsTight defaultRedirectUri where
  ne_empty := by decide
  first c h := Option.some.inj h ▸ by decide
  last c h := Option.some.inj h ▸ by decide

theorem one_le_of_isCountOr (hm : 1 ≤ m) (h : IsCountOr m v n) : 1 ≤ n := by
  rcases h with ⟨_, rfl⟩ | ⟨_, h⟩
  case inl => exact hm
  case inr => exact h

theorem isResolved_of_isPathOr (hb : base.IsResolved) (h : IsPathOr base d v p) : p.IsResolved :=
  have ⟨_, _, h⟩ := h
  Path.isResolved_ofText hb h

-- Settings that have been loaded are valid, and it is known where they come from.
-- 1. each value is the one of the environment, or else of the document, or else its default
-- 2. texts are not empty and have no blanks around them, numbers are at least one, and paths are absolute; they
--    are resolved as far as the paths are that they start from
-- 3. every other document gives the same settings that says the same of the fields that are not overridden, as
--    long as its sections can be used
theorem valid_of_load (h : load base e path isAskedFor found = .ok s) :
    ∃ c, Reads found isAskedFor c ∧ Drawn base (given e c) s ∧
      (∀ t ∈ [s.clientId, s.clientSecret, s.redirectUri], Text.IsTight t) ∧
      (1 ≤ s.maxWorkers ∧ 1 ≤ s.requestTimeout) ∧
      (∀ p ∈ [s.library, s.logs], Path.isAbsolute p.text ∧ (base.IsResolved → p.IsResolved)) ∧
      ∀ other path' isAskedFor' c', Reads other isAskedFor' c' →
        (∀ f ∈ allFields, fromEnvironment e f = none → fieldValue? c' f = fieldValue? c f) →
        (∀ f ∈ allFields, IsUsable e c' f.sectionName) → load base e path' isAskedFor' other = .ok s := by
  have ⟨c, hc, _, hd⟩ := load_eq_ok_iff.mp h
  refine ⟨c, hc, hd, ?texts, ⟨?workers, ?timeout⟩, ?paths, fun _ _ _ _ hr hv hu => load_eq_ok_iff.mpr ⟨_, hr, hu, ?other⟩⟩
  case texts =>
    simp only [List.forall_mem_cons]
    exact ⟨isTight_of_isText hd.clientId, isTight_of_isText hd.clientSecret,
      isTight_of_isTextOr isTight_defaultRedirectUri hd.redirectUri, nofun⟩
  case workers => exact one_le_of_isCountOr (by decide) hd.maxWorkers
  case timeout => exact one_le_of_isCountOr (by decide) hd.requestTimeout
  case paths =>
    simp only [List.forall_mem_cons]
    exact ⟨⟨Path.isAbsolute_text _, fun hb => isResolved_of_isPathOr hb hd.library⟩,
      ⟨Path.isAbsolute_text _, fun hb => isResolved_of_isPathOr hb hd.logs⟩, nofun⟩
  case other =>
    refine hd.congr fun f hf => ?_
    unfold given
    cases he : fromEnvironment e f
    case some => rfl
    case none => rw [hv f hf he]

theorem valid_of_load_mixed :
    let base : Path.Base := ⟨["work"], ["home", "me"], []⟩
    let environment := [("SPOTIFY_CLIENT_ID", " id "), ("SPOTIFY_CLIENT_SECRET", ""), ("PLAYLIST_GEN_DATABASE", "../db")]
    let found := Source.file (Text.Utf8.unitsOf
      "spotify:\n  client_id: []\n  client_secret: secret\ndatabase: none\nunknown: a".toList)
    let settings : Settings :=
      { clientId := "id", clientSecret := "secret", redirectUri := "http://127.0.0.1:8888/callback", library := ["db"],
        maxWorkers := 4, requestTimeout := 10, logs := ["home", "me", ".playlist-gen", "logs"] }
    load base environment "config.yaml" true found = .ok settings ∧
      ∃ c, Reads found true c ∧ Drawn base (given environment c) settings := by
  intro base environment found settings
  have h : load base environment "config.yaml" true found = .ok settings := eq_ok_of_toOption (by decide +kernel)
  have ⟨c, hr, hd, _⟩ := valid_of_load h
  exact ⟨h, c, hr, hd⟩

end LabelPlaylists.Settings
