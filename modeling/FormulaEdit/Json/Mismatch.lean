import FormulaEdit.Json.Basic
import FormulaEdit.Text.Quoted

/-!
# Values of the wrong type

A value that is not of the expected type is reported by what it is and what it should have been.
-/

namespace FormulaEdit.Json

/-- What a value is, as messages name it. -/
def describe : Json → String
  | .null => "null"
  | .bool value => s!"boolean `{value}`"
  | .int value => s!"integer `{value}`"
  | .float value => "floating point `" ++ value.text ++ "`"
  | .str value => "string " ++ Text.quoted value
  | .arr _ => "sequence"
  | .obj _ => "map"

/-- The message for a value of the wrong type. -/
def invalidType (expected : String) (value : Json) : String :=
  "invalid type: " ++ value.describe ++ ", expected " ++ expected

/-- The message for a value of the right type that is out of range. -/
def invalidValue (expected : String) (value : Json) : String :=
  "invalid value: " ++ value.describe ++ ", expected " ++ expected

/-- The message for a sequence with too few or too many items. -/
def invalidLength (length : Nat) (expected : String) : String :=
  s!"invalid length {length}, expected {expected}"

/-- The message for a member that is not given. -/
def missingField (name : String) : String := s!"missing field `{name}`"

/-- The message for a word that is none of those expected. -/
def unknownVariant (word : String) (expected : List String) : String :=
  s!"unknown variant `{word}`, expected one of " ++
    ", ".intercalate (expected.map fun w ↦ s!"`{w}`")

end FormulaEdit.Json
