import FormulaEdit.Number.Binary64

/-!
# JSON values

Numbers keep the form they are written in: an integer that fits 64 bits is an integer, any other
number is the binary64 number it reads as. The members of an object are kept in the order of their
keys, and a key that is given twice has its last value.
-/

namespace FormulaEdit

/-- A JSON value. -/
inductive Json where
  | null
  | bool (value : Bool)
  | int (value : Int)
  | float (value : Number.Binary64)
  | str (value : String)
  | arr (items : List Json)
  | obj (members : List (String × Json))
  deriving Repr, Inhabited

namespace Json

/-- Put a member among others that are ordered by key, in place of one with the same key. -/
def putMember (key : String) (value : Json) : List (String × Json) → List (String × Json)
  | [] => [(key, value)]
  | (k, v) :: rest =>
    if key = k then (key, value) :: rest
    else if key < k then (key, value) :: (k, v) :: rest
    else (k, v) :: putMember key value rest

/-- The object with the given members, a later one replacing an earlier one of the same key. -/
def ofMembers (members : List (String × Json)) : Json :=
  .obj (members.foldl (fun acc (k, v) ↦ putMember k v acc) [])

/-- The value of a member of an object. -/
def get? (key : String) : Json → Option Json
  | .obj members => members.lookup key
  | _ => none

end Json

end FormulaEdit
