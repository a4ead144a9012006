import FormulaEdit.Formula.Node
import FormulaEdit.Json.Record

/-!
# Flags in JSON

The flags of a node are kept as an object. The reason why a text is rejected may be left out.
-/

namespace FormulaEdit.Flags

/-- The fields of the flags of a node. -/
def record : Json.Record Flags where
  title := "struct EditFlags"
  fields := [
    ⟨"isOpen", fun value flags ↦ (Json.boolean value).map fun isOpen ↦ { flags with isOpen },
      true, false⟩,
    ⟨"invalid", fun value flags ↦
      (Json.optional Json.string value).map fun invalid ↦ { flags with invalid }, false, false⟩]

/-- Decode the flags of a node. -/
def decode : Json.Decoder Flags := record.decode default

end FormulaEdit.Flags
