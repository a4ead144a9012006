import FormulaEdit.Json.Mismatch
import FormulaEdit.Number.Bounded

/-!
# Decoding values

A decoder turns a value into data or says what is wrong with it. A record is decoded from an object,
whose unknown members are passed over, or from an array, whose items are the fields in the order of
their declaration. The first fault is reported: in an object that is the first bad member in the
order of keys and then the first missing field, in an array the first bad or missing item and then
any item too many.
-/

namespace FormulaEdit.Json

/-- A decoder answers with data or with a message. -/
abbrev Decoder (α : Type) := Json → Except String α

/-- Decode a string. -/
def string : Decoder String
  | .str value => .ok value
  | other => .error (invalidType "a string" other)

/-- Decode a truth value. -/
def boolean : Decoder Bool
  | .bool value => .ok value
  | other => .error (invalidType "a boolean" other)

/-- Decode an index. -/
def index : Decoder Nat
  | .int (.ofNat n) => .ok n
  | .int n => .error (invalidValue "usize" (.int n))
  | other => .error (invalidType "usize" other)

/-- Decode an array item by item. -/
def list {α : Type} (item : Decoder α) : Decoder (List α)
  | .arr items => items.mapM item
  | other => .error (invalidType "a sequence" other)

/-- Decode a value that may be null. -/
def optional {α : Type} (decode : Decoder α) : Decoder (Option α)
  | .null => .ok none
  | value => (decode value).map some

/-! ## Records -/

/-- A field of a record under construction. -/
structure Field (σ : Type) where
  /-- The key of the field. -/
  name : String
  /-- Put a value into the record. -/
  store : Json → σ → Except String σ
  /-- Whether an object has to give the field. -/
  required : Bool
  /-- Whether an array may end before the field. -/
  trailing : Bool

/-- A record type: what messages call it, and its fields in the order of declaration. -/
structure Record (σ : Type) where
  /-- What messages call a value of the type. -/
  title : String
  /-- The fields of the type. -/
  fields : List (Field σ)
  /-- What messages say of an array that has too many items for this record. -/
  tooLong : String := "fewer elements in array"

namespace Record

/-- How messages describe the number of fields. -/
def arity {σ : Type} (record : Record σ) : String :=
  let n := record.fields.length
  record.title ++ s!" with {n} element" ++ (if n = 1 then "" else "s")

/-- Put the members of an object into the record. -/
def storeMembers {σ : Type} (fields : List (Field σ)) : List (String × Json) → σ → Except String σ
  | [], state => .ok state
  | (key, value) :: rest, state =>
    match fields.find? (·.name = key) with
    | some field =>
      match field.store value state with
      | .ok state => storeMembers fields rest state
      | .error message => .error message
    | none => storeMembers fields rest state

/-- Put the items of an array into the record. -/
def storeItems {σ : Type} (record : Record σ) (size : Nat) :
    List (Field σ) → List Json → σ → Except String σ
  | [], [], state => .ok state
  | [], _ :: _, _ => .error (invalidLength size record.tooLong)
  | field :: fields, [], state =>
    if field.trailing then storeItems record size fields [] state
    else .error (invalidLength size record.arity)
  | field :: fields, value :: values, state =>
    match field.store value state with
    | .ok state => storeItems record size fields values state
    | .error message => .error message

/-- Decode a record, from the given state. -/
def decode {σ : Type} (record : Record σ) (start : σ) : Decoder σ
  | .obj members =>
    match storeMembers record.fields members start with
    | .error message => .error message
    | .ok state =>
      match record.fields.find? fun f ↦ f.required && (members.lookup f.name).isNone with
      | some field => .error (missingField field.name)
      | none => .ok state
  | .arr items => record.storeItems items.length record.fields items start
  | other => .error (invalidType record.title other)

end Record

end FormulaEdit.Json
