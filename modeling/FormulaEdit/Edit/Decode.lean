import FormulaEdit.Edit.Basic
import FormulaEdit.Json.Record

/-!
# Edits in JSON

An edit is an object whose member `type` says which one it is. In place of the object there may be
an array with the type as its first item.
-/

namespace FormulaEdit

namespace Edit

/-- What belongs to an edit besides its type. -/
inductive Form where
  /-- A text, under a key. -/
  | text (title key : String) (make : String → Edit)
  /-- Nothing. -/
  | bare (edit : Edit)

/-- The types of edits in the order of their declaration. -/
def forms : List (String × Form) := [
  ("selectOperator", .text "SelectOperator" "name" .selectOperator),
  ("selectVariant", .text "SelectVariant" "selector" .selectVariant),
  ("setInput", .text "SetInput" "raw" .setInput),
  ("listAdd", .bare .listAdd),
  ("listRemove", .bare .listRemove),
  ("toggleOpen", .bare .toggleOpen)]

/-- The record of an edit that has a text. -/
def textRecord (title key : String) : Json.Record String where
  title := s!"struct variant Edit::{title}"
  fields := [⟨key, fun value _ ↦ Json.string value, true, false⟩]
  tooLong := "1 element in sequence"

/-- Decode what belongs to an edit besides its type. -/
def Form.decode : Form → Json.Decoder Edit
  | .text title key make, value => ((textRecord title key).decode "" value).map make
  | .bare edit, value =>
    match value with
    | .arr (item :: items) =>
      .error (Json.invalidLength (item :: items).length "0 elements in sequence")
    | _ => .ok edit

/-- Decode an edit from its type and the rest. -/
def decodeTagged (tag rest : Json) : Except String Edit :=
  match tag with
  | .str word =>
    match forms.lookup word with
    | some form => form.decode rest
    | none => .error (Json.unknownVariant word (forms.map (·.1)))
  | other => .error (Json.invalidType "variant identifier" other)

/-- Decode an edit. -/
def decode : Json.Decoder Edit
  | .obj members =>
    match members.lookup "type" with
    | some tag => decodeTagged tag (.obj (members.filter (·.1 != "type")))
    | none => .error (Json.missingField "type")
  | .arr (tag :: rest) => decodeTagged tag (.arr rest)
  | .arr [] => .error (Json.missingField "type")
  | other => .error (Json.invalidType "internally tagged enum Edit" other)

end Edit

namespace EditEvent

/-- The fields of an edit of a node. -/
def record : Json.Record EditEvent where
  title := "struct EditEvent"
  fields := [
    ⟨"path", fun value event ↦ (Json.list Json.index value).map fun path ↦ { event with path },
      true, false⟩,
    ⟨"edit", fun value event ↦ (Edit.decode value).map fun edit ↦ { event with edit },
      true, false⟩]

/-- Decode an edit of a node. -/
def decode : Json.Decoder EditEvent := record.decode ⟨[], .toggleOpen⟩

end EditEvent

end FormulaEdit
