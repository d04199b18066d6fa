import LabelPlaylists.Number.Binary64

/-!
JSON values. Whole numbers and doubles are kept apart, an object keeps the order of its fields,
and a later field of the same name takes the place of the earlier one.
-/

namespace LabelPlaylists

inductive Json where
  | null
  | bool (b : Bool)
  | int (n : Int)
  | real (x : Binary64)
  | str (s : String)
  | arr (elements : List Json)
  | obj (fields : List (String × Json))
deriving Inhabited, Repr

namespace Json

def setField (fields : List (String × Json)) (name : String) (value : Json) :
    List (String × Json) :=
  match fields with
  | [] => [(name, value)]
  | f :: rest =>
    if f.1 = name then (name, value) :: rest else f :: setField rest name value

def get? (j : Json) (name : String) : Option Json :=
  match j with
  | .obj fields => (fields.find? (·.1 = name)).map (·.2)
  | _ => none

theorem find?_setField (fields : List (String × Json)) (name : String) (value : Json) :
    (setField fields name value).find? (·.1 = name) = some (name, value) := by
  induction fields with
  | nil => simp [setField]
  | cons f rest ih =>
    unfold setField
    split
    · simp
    · next h => simp [h, ih]

end Json

end LabelPlaylists
