import LabelPlaylists.Json.Writer

/-!
The words of criteria: operators and literals. Criteria select tracks, for instance
`explicit = false and artist = "Muse"`.
-/

namespace LabelPlaylists.Criteria

-- A comparison operator. A tree that was not read from text may hold an unknown one.
inductive Operator where
  | eq
  | ne
  | lt
  | le
  | gt
  | ge
  | contains
  | unknown (text : String)
deriving DecidableEq, Repr

namespace Operator

def text : Operator → String
  | eq => "="
  | ne => "!="
  | lt => "<"
  | le => "<="
  | gt => ">"
  | ge => ">="
  | contains => "~"
  | unknown text => text

def ofText (s : String) : Operator :=
  ([eq, ne, lt, le, gt, ge, contains].find? fun o => o.text = s).getD (unknown s)

end Operator

-- A value to compare with. A tree that was not read from text may hold any other JSON value.
inductive Literal where
  | text (s : String)
  | number (n : Int)
  | flag (b : Bool)
  | other (value : Json)
deriving Repr

def Literal.ofJson : Json → Literal
  | .str s => .text s
  | .int n => .number n
  | .bool b => .flag b
  | j => .other j

def Literal.shown : Literal → String
  | .text s => Text.quoted s
  | .number n => toString n
  | .flag b => if b then "True" else "False"
  | .other j => j.shown

inductive Kind where
  | text
  | bool
  | date
  | number
deriving DecidableEq, Repr

namespace Kind

def name : Kind → String
  | text => "text"
  | bool => "bool"
  | date => "date"
  | number => "number"

def literalForm : Kind → String
  | text => "a quoted string"
  | bool => "true or false"
  | date => "a quoted date like \"2020-01-31\""
  | number => "a number"

end Kind

end LabelPlaylists.Criteria
