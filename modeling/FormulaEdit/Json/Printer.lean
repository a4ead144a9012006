/-!
# Printing JSON

A document to be printed is made of the same parts as a value, but its members keep the order they
are given in. It is laid out with one item or member a line, indented by two spaces a level; an
empty array or object takes no line of its own.
-/

namespace FormulaEdit

/-- A document to be printed. -/
inductive JsonDoc where
  | null
  | bool (value : Bool)
  | nat (value : Nat)
  | str (value : String)
  | arr (items : List JsonDoc)
  | obj (members : List (String × JsonDoc))
  deriving Repr, Inhabited

namespace JsonDoc

/-- The hexadecimal digits of a control character. -/
def controlCode (c : Char) : List Char :=
  let digits := Nat.toDigits 16 c.toNat
  ['\\', 'u'] ++ List.replicate (4 - digits.length) '0' ++ digits

/-- One character of a printed string. -/
def stringChar (c : Char) : List Char :=
  if c = '"' || c = '\\' then ['\\', c]
  else if c = '\x08' then ['\\', 'b']
  else if c = '\x0c' then ['\\', 'f']
  else if c = '\n' then ['\\', 'n']
  else if c = '\r' then ['\\', 'r']
  else if c = '\t' then ['\\', 't']
  else if c < ' ' then controlCode c
  else [c]

/-- A printed string. -/
def stringText (s : String) : String :=
  String.ofList ('"' :: s.toList.flatMap stringChar ++ ['"'])

/-- The start of a line at a level. -/
def newLine (level : Nat) : String :=
  String.ofList ('\n' :: List.replicate (2 * level) ' ')

mutual

/-- The text of a document that starts at a level. -/
def pretty (level : Nat) : JsonDoc → String
  | .null => "null"
  | .bool value => if value then "true" else "false"
  | .nat value => toString value
  | .str value => stringText value
  | .arr [] => "[]"
  | .arr (item :: items) =>
    "[" ++ newLine (level + 1) ++ pretty (level + 1) item ++ prettyItems (level + 1) items ++
      newLine level ++ "]"
  | .obj [] => "\x7b\x7d"
  | .obj ((key, value) :: members) =>
    "\x7b" ++ newLine (level + 1) ++ stringText key ++ ": " ++ pretty (level + 1) value ++
      prettyMembers (level + 1) members ++ newLine level ++ "\x7d"

/-- The items after the first. -/
def prettyItems (level : Nat) : List JsonDoc → String
  | [] => ""
  | item :: items => "," ++ newLine level ++ pretty level item ++ prettyItems level items

/-- The members after the first. -/
def prettyMembers (level : Nat) : List (String × JsonDoc) → String
  | [] => ""
  | (key, value) :: members =>
    "," ++ newLine level ++ stringText key ++ ": " ++ pretty level value ++
      prettyMembers level members

end

/-- The text of a whole document. -/
def text (doc : JsonDoc) : String := doc.pretty 0

end JsonDoc

end FormulaEdit
