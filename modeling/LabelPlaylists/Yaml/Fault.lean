/-!
What can be wrong with a YAML text.
-/

namespace LabelPlaylists.Yaml

inductive Fault where
  -- The text is not one YAML document, or holds a tag, an alias or a key that has no meaning.
  | malformed
  | noCharacter (code : Nat)
  | notANumber
  -- A number with more places than a double can have.
  | numberTooLarge
  | emptyNumber
  -- A flag other than yes, no, true, false, on and off.
  | notAFlag
  | notATime
  | timeOfMapping
  -- In the form of a time, but of a day or an hour that does not exist.
  | noSuchTime
  -- Nodes that lie too deep in each other, or without end.
  | tooDeep
deriving DecidableEq, Repr

end LabelPlaylists.Yaml
