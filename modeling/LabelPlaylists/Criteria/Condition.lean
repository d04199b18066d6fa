import LabelPlaylists.Criteria.Tree
import LabelPlaylists.Calendar.Iso
import LabelPlaylists.Sql.Relation

/-!
Conditions on a track: what a predicate tree means once its names, operators and literals have been
found to fit together.

    name, album, artist, genre, label   text     =  !=  ~
    explicit                            flag     =  !=
    added, released                     date     =  !=  <  <=  >  >=
    year                                number   =  !=  <  <=  >  >=

A track has several artists, genres and labels: with them = and ~ hold of some value, and != holds
if no value equals the literal.
-/

namespace LabelPlaylists.Criteria

inductive TextAttribute where
  | name
  | album
  | artist
  | genre
  | label
deriving DecidableEq, Repr

inductive DayAttribute where
  | added
  | released
deriving DecidableEq, Repr

inductive Attribute where
  | text (a : TextAttribute)
  | explicit
  | day (a : DayAttribute)
  | year
deriving DecidableEq, Repr

namespace Attribute

def ofName? : String → Option Attribute
  | "name" => some (.text .name)
  | "album" => some (.text .album)
  | "artist" => some (.text .artist)
  | "genre" => some (.text .genre)
  | "label" => some (.text .label)
  | "explicit" => some .explicit
  | "added" => some (.day .added)
  | "released" => some (.day .released)
  | "year" => some .year
  | _ => none

def kind : Attribute → Kind
  | text _ => .text
  | explicit => .bool
  | day _ => .date
  | year => .number

end Attribute

inductive TextRelation where
  | equals
  | differs
  | contains
deriving DecidableEq, Repr

def Operator.textRelation? : Operator → Option TextRelation
  | eq => some .equals
  | ne => some .differs
  | contains => some .contains
  | _ => none

def Operator.relation? : Operator → Option Relation
  | eq => some .eq
  | ne => some .ne
  | lt => some .lt
  | le => some .le
  | gt => some .gt
  | ge => some .ge
  | _ => none

inductive Condition where
  | isExplicit
  | explicit (same : Bool) (value : Bool)
  | text (a : TextAttribute) (r : TextRelation) (value : String)
  | day (a : DayAttribute) (r : Relation) (value : String)
  | year (r : Relation) (value : Int)
  | not (c : Condition)
  | and (cs : List Condition)
  | or (cs : List Condition)
deriving Repr

namespace Condition

def IsStorable (n : Int) : Prop := -2 ^ 63 ≤ n ∧ n < 2 ^ 63

instance (n : Int) : Decidable (IsStorable n) := by unfold IsStorable; infer_instance

-- The condition of a comparison. The operator is looked at before the literal.
def ofComparison (name : String) (o : Operator) (value : Literal) (position : Nat) :
    Except Error Condition :=
  match Attribute.ofName? name with
  | none => .error ⟨.unknownAttribute name, position⟩
  | some a =>
    let notAllowed : Except Error Condition :=
      .error ⟨.operatorNotAllowed o a.kind name, position⟩
    let wrong : Except Error Condition := .error ⟨.wrongLiteral name a.kind value, position⟩
    match a with
    | .text a =>
      match o.textRelation? with
      | none => notAllowed
      | some r =>
        match value with
        | .text s => .ok (.text a r s)
        | _ => wrong
    | .explicit =>
      match o with
      | .eq | .ne =>
        match value with
        | .flag b => .ok (.explicit (o = .eq) b)
        | _ => wrong
      | _ => notAllowed
    | .day a =>
      match o.relation? with
      | none => notAllowed
      | some r =>
        match value with
        | .text s =>
          match Day.ofIso? s with
          | some d => .ok (.day a r d.text)
          | none => wrong
        | _ => wrong
    | .year =>
      match o.relation? with
      | none => notAllowed
      | some r =>
        match value with
        | .number n =>
          if IsStorable n then .ok (.year r n) else .error ⟨.outOfRange name n, position⟩
        | _ => wrong

mutual

-- The condition of a tree; of several problems the first in the text is found.
def ofTree : Tree → Except Error Condition
  | .bare name position =>
    match Attribute.ofName? name with
    | none => .error ⟨.unknownAttribute name, position⟩
    | some .explicit => .ok .isExplicit
    | some _ => .error ⟨.notBoolean name, position⟩
  | .comparison name o value position => ofComparison name o value position
  | .not t => do .ok (.not (← ofTree t))
  | .and ts => do .ok (.and (← ofTrees ts))
  | .or ts => do .ok (.or (← ofTrees ts))
  | .foreign => .error ⟨.notAPredicate, 0⟩

def ofTrees : List Tree → Except Error (List Condition)
  | [] => .ok []
  | t :: rest => do
    let c ← ofTree t
    let cs ← ofTrees rest
    .ok (c :: cs)

end

end Condition

-- The condition of criteria text, or the first problem with it.
def compile (text : String) : Except Error Condition := do
  Condition.ofTree (← Tree.ofText text)

def problem? (text : String) : Option Error :=
  match compile text with
  | .ok _ => none
  | .error e => some e

def isValid (text : String) : Bool := (problem? text).isNone

end LabelPlaylists.Criteria
