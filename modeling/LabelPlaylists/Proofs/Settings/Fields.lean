import LabelPlaylists.Proofs.Result
import LabelPlaylists.Proofs.Text.Utf8
import LabelPlaylists.Proofs.Yaml.Content
import LabelPlaylists.Settings.Load

namespace LabelPlaylists.Settings

open Yaml (Value Content)

variable {es : Entries} {e : Environment} {f g : Field} {s name : String} {c : Content} {v : Value}

/-! ## What entries say of a field -/

-- Null says nothing.
def present : Option Value → Option Value
  | some .null => none
  | v => v

-- What is said of a field, where its section is a mapping or left out.
def said (es : Entries) (f : Field) : Except Problem (Option Value) :=
  (fieldsOf es f.sectionName).map fun fields => present (Value.get? fields f.name)

-- Neither a field nor its section is mistaken for another one.
theorem apart (hf : f ∈ allFields) (hg : g ∈ allFields) :
    f.name ≠ g.sectionName ∧ (f ≠ g → f.name ≠ g.name) := by
  have : ∀ f ∈ allFields, ∀ g ∈ allFields, f.name ≠ g.sectionName ∧ (f ≠ g → f.name ≠ g.name) := by decide
  exact this f hf g hg

theorem said_setField_self (hf : f ∈ allFields) : said (setField es f s) f = .ok (some (.text s)) := by
  have hn := (apart hf hf).left
  unfold said setField
  split
  case h_1 fields _ => simp [fieldsOf, Value.get?_setEntry_self, Except.map, present]
  case h_2 h =>
    simp [fieldsOf, Value.get?_setEntry_of_ne _ _ hn, h, Value.get?_setEntry_self, Except.map, present]
  case h_3 => simp [fieldsOf, Value.get?_setEntry_self, Except.map, present, Value.get?, Value.sameKey]

-- The other fields of a section that can be used are left alone. Of a section that cannot, nothing is left.
theorem said_setField_sibling (hf : f ∈ allFields) (hg : g ∈ allFields) (hn : f ≠ g)
    (hs : f.sectionName = g.sectionName) :
    said (setField es f s) g = .ok (said es g).toOption.join := by
  have hn := (apart hf hg).right hn
  have hfs := (apart hf hf).left
  unfold said setField
  rw [← hs]
  split
  case h_1 fields h =>
    simp [fieldsOf, Value.get?_setEntry_self, h, Value.get?_setEntry_of_ne _ _ hn, Except.map, Except.toOption]
  case h_2 h =>
    simp [fieldsOf, Value.get?_setEntry_of_ne _ _ hfs, Value.get?_setEntry_of_ne _ _ hn, h, Except.map, Except.toOption]
  case h_3 hm he =>
    have hl : Value.get? [(.text f.name, .text s)] g.name = none := by
      simp [Value.get?, Value.sameKey, hn]
    simp only [fieldsOf, Value.get?_setEntry_self, hl, Except.map, present]
    rcases hv : Value.get? es f.sectionName with _ | v
    case none => simp [Except.toOption, Value.get?]
    case some =>
      cases v
      case mapping => exact absurd hv (hm _)
      case enclosing => exact absurd hv he
      all_goals simp [Except.toOption, Value.get?]

-- Neither are the fields of other sections changed.
theorem said_setField_other (hf : f ∈ allFields) (hg : g ∈ allFields) (hs : f.sectionName ≠ g.sectionName) :
    said (setField es f s) g = said es g := by
  have hfg := apart hf hg
  have hgf := apart hg hf
  have hn : f ≠ g := fun h => hs (h ▸ rfl)
  have hk (name : String) (v : Value) (h₁ : name ≠ g.sectionName) (h₂ : name ≠ g.name) :
      said (Value.setEntry es (.text name) v) g = said es g := by
    unfold said fieldsOf
    rw [Value.get?_setEntry_of_ne _ _ h₁]
    split <;> simp [Except.map, Value.get?_setEntry_of_ne _ _ h₂]
  unfold setField
  split
  case h_2 => exact hk _ _ hfg.left (hfg.right hn)
  all_goals exact hk _ _ hs hgf.left.symm

/-! ## Overrides -/

def nonEmpty? (e : Environment) (name : String) : Option String := (e.lookup name).filter (· ≠ "")

section Overrides

variable {overrides : List (String × Field)} {x : String × Field}

-- What some overrides give for a field.
def fromVariables (e : Environment) (overrides : List (String × Field)) (f : Field) : Option String :=
  (overrides.find? (·.2 = f)).bind fun x => nonEmpty? e x.1

-- One of the overrides gives something for a field of the section.
def IsTouched (e : Environment) (overrides : List (String × Field)) (name : String) : Prop :=
  ∃ x ∈ overrides, x.2.sectionName = name ∧ (nonEmpty? e x.1).isSome

instance : Decidable (IsTouched e overrides name) :=
  inferInstanceAs (Decidable (∃ x ∈ overrides, x.2.sectionName = name ∧ (nonEmpty? e x.1).isSome))

theorem fromVariables_cons_self (e : Environment) (overrides : List (String × Field)) :
    fromVariables e (x :: overrides) x.2 = nonEmpty? e x.1 := by
  simp [fromVariables]

theorem fromVariables_cons_of_ne (h : x.2 ≠ f) : fromVariables e (x :: overrides) f = fromVariables e overrides f := by
  simp [fromVariables, h]

theorem fromVariables_of_notMem (h : f ∉ overrides.map (·.2)) : fromVariables e overrides f = none := by
  have : overrides.find? (·.2 = f) = none :=
    List.find?_eq_none.mpr fun x hx he => h (List.mem_map.mpr ⟨x, hx, of_decide_eq_true he⟩)
  simp [fromVariables, this]

theorem isTouched_cons_iff :
    IsTouched e (x :: overrides) name ↔
      (x.2.sectionName = name ∧ (nonEmpty? e x.1).isSome) ∨ IsTouched e overrides name := by
  simp [IsTouched]

theorem isTouched_of_fromVariables (h : fromVariables e overrides f = some s) :
    IsTouched e overrides f.sectionName := by
  have ⟨x, hx, hs⟩ := Option.bind_eq_some_iff.mp h
  have he : x.2 = f := by simpa using List.find?_some hx
  exact ⟨x, List.mem_of_find?_eq_some hx, he ▸ rfl, by simp [hs]⟩

def assign (e : Environment) (es : Entries) (x : String × Field) : Entries :=
  match nonEmpty? e x.1 with
  | some s => setField es x.2 s
  | none => es

theorem overridden_eq (e : Environment) (es : Entries) : overridden e es = overriding.foldl (assign e) es := by
  refine congrArg (List.foldl · es overriding) (funext fun es => funext fun x => ?_)
  unfold assign nonEmpty?
  dsimp only
  rcases e.lookup x.1 with _ | s
  case none => rfl
  case some => by_cases hs : s = "" <;> simp [Option.filter, hs]

-- A field that is overridden is said to be what it is set to. The other fields of its section are left alone, but
-- are said to be nothing if the section could not be used.
theorem said_foldl_assign (hv : ∀ x ∈ overrides, x.2 ∈ allFields) (hd : (overrides.map (·.2)).Nodup)
    (hg : g ∈ allFields) :
    said (overrides.foldl (assign e) es) g =
      match fromVariables e overrides g with
      | some s => .ok (some (.text s))
      | none => if IsTouched e overrides g.sectionName then .ok (said es g).toOption.join else said es g := by
  induction overrides generalizing es
  case nil => simp [fromVariables, IsTouched]
  case cons x rest hi =>
    have ⟨hf, hv⟩ := List.forall_mem_cons.mp hv
    have ⟨hn, hd⟩ := List.nodup_cons.mp hd
    rw [List.foldl_cons, hi hv hd]
    rcases hx : nonEmpty? e x.1 with _ | s
    case none =>
      have ha : assign e es x = es := by simp [assign, hx]
      have hr : fromVariables e (x :: rest) g = fromVariables e rest g := by
        by_cases h : x.2 = g
        case pos => rw [← h, fromVariables_cons_self, hx, fromVariables_of_notMem hn]
        case neg => exact fromVariables_cons_of_ne h
      simp [ha, hr, isTouched_cons_iff, hx]
    case some =>
      have ha : assign e es x = setField es x.2 s := by simp [assign, hx]
      rw [ha]
      by_cases h : x.2 = g
      case pos =>
        rw [← h, fromVariables_cons_self, hx, fromVariables_of_notMem hn]
        simp [said_setField_self hf, Except.toOption]
      case neg =>
        rw [fromVariables_cons_of_ne h]
        by_cases hs : x.2.sectionName = g.sectionName
        case pos => simp [isTouched_cons_iff, hs, hx, said_setField_sibling hf hg h hs, Except.toOption]
        case neg => simp [isTouched_cons_iff, hs, said_setField_other hf hg hs]

end Overrides

/-! ## Documents -/

-- What a document says of a field.
def fieldValue? (c : Content) (f : Field) : Option Value :=
  (c.entry? c.root f.sectionName).bind fun n => present ((c.entry? n f.name).map c.value)

-- A section may be left out or null; else it is a mapping.
def IsSection (c : Content) (name : String) : Prop :=
  ∀ n, c.entry? c.root name = some n → c.thing n = .scalar .null ∨ ∃ entries, c.thing n = .mapping entries

-- Some of the entries of a node.
def picked (p : String → Bool) (value : Nat → Value) (entries : List (Value × Nat)) : Entries :=
  entries.filterMap fun
    | (.text name, n) => if p name then some (.text name, value n) else none
    | _ => none

theorem sameKey_text_iff : v.sameKey (.text s) ↔ v = .text s := by
  cases v <;> simp [Value.sameKey, Value.number?]

theorem get?_append (es es' : Entries) (name : String) :
    Value.get? (es ++ es') name = (Value.get? es name).or (Value.get? es' name) := by
  induction es
  case nil => rfl
  case cons x es hi =>
    rw [List.cons_append, Value.get?, Value.get?, hi]
    split <;> rfl

section Picked

variable {p : String → Bool} {value : Nat → Value} {n : Nat} {entries : List (Value × Nat)}

theorem picked_cons_of_ne (h : ∀ t, v ≠ .text t) : picked p value ((v, n) :: entries) = picked p value entries := by
  cases v
  case text t => exact absurd rfl (h t)
  all_goals rfl

theorem picked_cons_text (t : String) :
    picked p value ((.text t, n) :: entries) =
      if p t then (.text t, value n) :: picked p value entries else picked p value entries := by
  by_cases h : p t <;> simp [picked, h]

theorem get?_picked (p : String → Bool) (value : Nat → Value) (entries : List (Value × Nat)) (name : String) :
    Value.get? (picked p value entries) name =
      if p name then (entries.find? (·.1.sameKey (.text name))).map fun x => value x.2 else none := by
  induction entries
  case nil => simp [picked, Value.get?]
  case cons x entries hi =>
    obtain ⟨v, n⟩ := x
    by_cases hv : ∃ t, v = .text t
    case pos =>
      obtain ⟨t, rfl⟩ := hv
      have hs : (Value.text t).sameKey (.text name) = decide (t = name) := rfl
      rw [picked_cons_text, List.find?_cons]
      by_cases ht : t = name
      case pos =>
        subst ht
        by_cases hp : p t <;> simp [Value.get?, hs, hp, hi]
      case neg => by_cases hp : p t <;> simp [Value.get?, hs, hp, hi, ht]
    case neg =>
      have hs : v.sameKey (.text name) = false := Bool.eq_false_iff.mpr fun h => hv ⟨name, sameKey_text_iff.mp h⟩
      rw [picked_cons_of_ne fun t ht => hv ⟨t, ht⟩, hi, List.find?_cons, hs]

end Picked

theorem fieldEntries_eq (c : Content) (entries : List (Value × Nat)) :
    fieldEntries c entries = picked (fun name => allFields.any (·.name = name)) c.value entries := rfl

theorem knownEntries_eq (c : Content) (entries : List (Value × Nat)) :
    knownEntries c entries =
      fieldEntries c entries ++ picked (fun name => allFields.any (·.sectionName = name)) (sectionValue c) entries := rfl

section Known

variable {entries : List (Value × Nat)}

theorem get?_fieldEntries {n : Nat} (hf : f ∈ allFields) (h : c.thing n = .mapping entries) :
    Value.get? (fieldEntries c entries) f.name = (c.entry? n f.name).map c.value := by
  have : allFields.any (·.name = f.name) := List.any_eq_true.mpr ⟨f, hf, decide_eq_true rfl⟩
  rw [fieldEntries_eq, get?_picked, if_pos this, Content.entry?, h]
  exact (Option.map_map ..).symm

theorem get?_knownEntries_name (hf : f ∈ allFields) (h : c.thing c.root = .mapping entries) :
    Value.get? (knownEntries c entries) f.name = (c.entry? c.root f.name).map c.value := by
  have : ¬(allFields.any (·.sectionName = f.name)) := by
    simp only [List.any_eq_true, decide_eq_true_eq, not_exists, not_and]
    exact fun g hg => (apart hf hg).left.symm
  rw [knownEntries_eq, get?_append, get?_fieldEntries hf h, get?_picked, if_neg this, Option.or_none]

theorem get?_knownEntries_sectionName (hf : f ∈ allFields) (h : c.thing c.root = .mapping entries) :
    Value.get? (knownEntries c entries) f.sectionName = (c.entry? c.root f.sectionName).map (sectionValue c) := by
  have hs : allFields.any (·.sectionName = f.sectionName) := List.any_eq_true.mpr ⟨f, hf, decide_eq_true rfl⟩
  have hn : ¬(allFields.any (·.name = f.sectionName)) := by
    simp only [List.any_eq_true, decide_eq_true_eq, not_exists, not_and]
    exact fun g hg => (apart hg hf).left
  rw [knownEntries_eq, get?_append, fieldEntries_eq, get?_picked, if_neg hn, get?_picked, if_pos hs, Option.none_or]
  simp only [Content.entry?, h, Option.map_map]
  rfl

end Known

-- What a configuration text is said to hold is what stands in its document.
theorem said_knownEntries {text : String} {entries : List (Value × Nat)} (hf : f ∈ allFields)
    (hc : Content.ofText text = .ok c) (hr : c.thing c.root = .mapping entries) :
    (IsSection c f.sectionName → said (knownEntries c entries) f = .ok (fieldValue? c f)) ∧
    (¬IsSection c f.sectionName →
      said (knownEntries c entries) f = .error (.badSection f.sectionName) ∧ fieldValue? c f = none) := by
  unfold said fieldsOf
  rw [get?_knownEntries_sectionName hf hr]
  unfold IsSection fieldValue?
  rcases hn : c.entry? c.root f.sectionName with _ | n
  case none => simp [Except.map, Value.get?, present]
  case some =>
    simp only [Option.map_some, Option.some.injEq, forall_eq', Option.bind_some]
    unfold sectionValue
    by_cases hroot : n = c.root
    case pos =>
      simp [hroot, hr, Except.map, get?_knownEntries_name hf hr]
    case neg =>
      simp only [if_neg hroot]
      cases ht : c.thing n
      case mapping => simp [Except.map, get?_fieldEntries hf ht]
      case scalar v =>
        have he : c.entry? n f.name = none := by simp [Content.entry?, ht]
        have hv := Content.isSimple_of_thing hc ht
        cases v
        case null => simp [Except.map, Value.get?, present, he]
        case mapping | enclosing => cases hv
        all_goals simp [Except.map, present, he]
      all_goals simp [Except.map, present, Content.entry?, ht]

/-! ## The file and the environment -/

variable {found : Source} {isAskedFor : Bool} {path : String}

-- The document that is found. One that is missing reads as an empty one, if nobody has asked for it.
inductive Reads : Source → Bool → Content → Prop
  | nothing : Reads .nothing false ⟨#[], 0⟩
  | file {s : List Char} {isAskedFor : Bool} {d : Content} (hd : Content.ofText (String.ofList s) = .ok d)
    (hr : d.thing d.root = .scalar .null ∨ ∃ entries, d.thing d.root = .mapping entries) :
    Reads (.file (Text.Utf8.unitsOf s)) isAskedFor d

-- What the environment gives for a field.
def fromEnvironment (e : Environment) (f : Field) : Option String := fromVariables e overriding f

-- What is given for a field: by the environment, or else by the document.
def given (e : Environment) (c : Content) (f : Field) : Option Value :=
  ((fromEnvironment e f).map .text).or (fieldValue? c f)

-- A section can be used if it is one in the document, or becomes one by being overridden.
def IsUsable (e : Environment) (c : Content) (name : String) : Prop :=
  IsSection c name ∨ IsTouched e overriding name

theorem exists_reads_of_entries (h : entries path isAskedFor found = .ok es) : ∃ c, Reads found isAskedFor c := by
  cases found
  case nothing =>
    cases isAskedFor
    case false => exact ⟨_, .nothing⟩
    case true  => nomatch h
  case directory => nomatch h
  case file octets =>
    rw [entries, entriesOf] at h
    split at h
    case h_1 => cases h
    case h_2 s hs =>
      cases Text.Utf8.strict?_eq_some_iff.mp hs
      split at h
      case h_1 => cases h
      case h_2 c hc =>
        split at h
        case h_1 hr         => exact ⟨c, .file hc (.inl hr)⟩
        case h_2 entries hr => exact ⟨c, .file hc (.inr ⟨entries, hr⟩)⟩
        case h_3 => cases h

theorem empty_of_scalar (h : c.thing c.root = .scalar v) (f : Field) :
    IsSection c f.sectionName ∧ said [] f = .ok (fieldValue? c f) := by
  have : c.entry? c.root f.sectionName = none := by simp [Content.entry?, h]
  simp [IsSection, fieldValue?, this, said, fieldsOf, Value.get?, Except.map, present]

theorem said_of_reads (path : String) (h : Reads found isAskedFor c) :
    ∃ es, entries path isAskedFor found = .ok es ∧ ∀ f ∈ allFields,
      (IsSection c f.sectionName → said es f = .ok (fieldValue? c f)) ∧
      (¬IsSection c f.sectionName → said es f = .error (.badSection f.sectionName) ∧ fieldValue? c f = none) := by
  cases h
  case nothing =>
    refine ⟨[], rfl, fun f _ => ?_⟩
    have ⟨hs, hv⟩ := empty_of_scalar (c := ⟨#[], 0⟩) rfl f
    exact ⟨fun _ => hv, absurd hs⟩
  case file s hc hr =>
    have hs := Text.Utf8.strict?_eq_some_iff.mpr (rfl : Text.Utf8.unitsOf s = _)
    rcases hr with hr | ⟨es, hr⟩
    case inl =>
      refine ⟨[], by simp [entries, entriesOf, hs, hc, hr], fun f _ => ?_⟩
      have ⟨hs, hv⟩ := empty_of_scalar hr f
      exact ⟨fun _ => hv, absurd hs⟩
    case inr =>
      exact ⟨_, by simp [entries, entriesOf, hs, hc, hr], fun f hf => said_knownEntries hf hc hr⟩

-- Entries say of each field what is given for it, if its section can be used.
def Tells (es : Entries) (e : Environment) (c : Content) : Prop :=
  ∀ f ∈ allFields, (IsUsable e c f.sectionName → said es f = .ok (given e c f)) ∧
    (¬IsUsable e c f.sectionName → said es f = .error (.badSection f.sectionName))

theorem overridden_tells (path : String) (e : Environment) (h : Reads found isAskedFor c) :
    ∃ es, entries path isAskedFor found = .ok es ∧ Tells (overridden e es) e c := by
  have ⟨es, he, h⟩ := said_of_reads path h
  refine ⟨es, he, fun f hf => ?_⟩
  have ⟨hs, hn⟩ := h f hf
  have hv : ∀ x ∈ overriding, x.2 ∈ allFields := by decide
  rw [overridden_eq, said_foldl_assign hv (by decide) hf]
  unfold given fromEnvironment IsUsable
  rcases hx : fromVariables e overriding f with _ | s
  case some => exact ⟨fun _ => rfl, fun h => absurd (.inr (isTouched_of_fromVariables hx)) h⟩
  case none =>
    by_cases hsec : IsSection c f.sectionName
    case pos => simp [hs hsec, hsec, Except.toOption]
    case neg => by_cases ht : IsTouched e overriding f.sectionName <;> simp [ht, hn hsec, hsec, Except.toOption]

end LabelPlaylists.Settings
