import LabelPlaylists.Criteria.Basic

/-!
What can be wrong with criteria, where it is, and how it is said.
-/

namespace LabelPlaylists.Criteria

inductive Problem where
  | unterminatedString
  | unexpectedCharacter (c : Char)
  | empty
  | unexpectedToken (value : String)
  | unexpectedEnd
  | expectedParenthesis
  | expectedAttribute (value : String)
  | expectedValue (value : String)
  | nestedTooDeeply
  | numberTooLong
  | unknownAttribute (name : String)
  | notBoolean (name : String)
  | operatorNotAllowed (operator : Operator) (kind : Kind) (name : String)
  | outOfRange (name : String) (value : Int)
  | wrongLiteral (name : String) (kind : Kind) (value : Literal)
  | notAPredicate
deriving Repr

def attributeNames : List String :=
  ["added", "album", "artist", "explicit", "genre", "label", "name", "released", "year"]

def named (name : String) : String := "'" ++ name ++ "'"

namespace Problem

def message : Problem → String
  | unterminatedString => "Unterminated string"
  | unexpectedCharacter c => "Unexpected character " ++ Text.quoted (String.singleton c)
  | empty => "Criteria is empty"
  | unexpectedToken value => "Unexpected " ++ Text.quoted value
  | unexpectedEnd => "Unexpected end of criteria"
  | expectedParenthesis => "Expected ')'"
  | expectedAttribute value => "Expected an attribute, got " ++ Text.quoted value
  | expectedValue value => "Expected a value, got " ++ Text.quoted value
  | nestedTooDeeply => "Criteria nested too deeply"
  | numberTooLong => "Number is too long"
  | unknownAttribute name =>
    "Unknown attribute " ++ named name ++ " (known: " ++ ", ".intercalate attributeNames ++ ")"
  | notBoolean name => named name ++ " is not a true/false attribute; compare it to a value"
  | operatorNotAllowed o kind name =>
    "Operator " ++ named o.text ++ " cannot be used with " ++ kind.name ++ " attribute "
      ++ named name
  | outOfRange name value => named name ++ " value " ++ toString value ++ " is out of range"
  | wrongLiteral name kind value =>
    named name ++ " must be compared to " ++ kind.literalForm ++ ", got " ++ value.shown
  | notAPredicate => "Not a predicate"

end Problem

-- A problem and the number of characters before it.
structure Error where
  problem : Problem
  position : Nat
deriving Repr

def Error.message (e : Error) : String := e.problem.message

-- A message with the criteria below it and a caret below the position, if there is one.
def described (message text : String) : Option Nat → String
  | none => message
  | some position =>
    message ++ "\n  " ++ text ++ "\n  " ++ String.ofList (List.replicate position ' ') ++ "^"

def Error.describe (e : Error) (text : String) : String := described e.message text e.position

end LabelPlaylists.Criteria
