import FormulaEdit.Atom.Basic
import FormulaEdit.Json.Record

/-!
# Atom types in JSON

An atom type is a string, or an object whose one key is the string and whose value is null.
-/

namespace FormulaEdit.Atom

/-- The atom types in the order of their declaration. -/
def all : List Atom := [number, int, str, bool, timestamp]

/-- Decode the name of an atom type. It has to be spelled as it is shown. -/
def decodeName (word : String) : Except String Atom :=
  match all.find? (·.name = word) with
  | some atom => .ok atom
  | none => .error (Json.unknownVariant word (all.map name))

/-- Decode an atom type. -/
def decode : Json.Decoder Atom
  | .str word => decodeName word
  | .obj [(word, value)] =>
    match decodeName word, value with
    | .ok atom, .null => .ok atom
    | .ok _, other => .error (Json.invalidType "unit" other)
    | .error message, _ => .error message
  | .obj members => .error (Json.invalidValue "map with a single key" (.obj members))
  | other => .error (Json.invalidType "string or map" other)

end FormulaEdit.Atom
