import FormulaEdit.Atom.Literal
import FormulaEdit.Atom.Timestamp
import FormulaEdit.Number.Decimal
import FormulaEdit.Text.Blank

/-!
# Atoms

An atom is a leaf of a formula that holds text typed by the user: a number, an integer, a string, a
truth value or a timestamp. `Atom.check` decides whether a text is well formed and gives it in
normal form, that is without blank margins, with a truth value in lower case and a string literal as
it is. A text that is not well formed is kept by the caller together with the reason for its
rejection.
-/

namespace FormulaEdit

open Text

/-- The types of leaves. -/
inductive Atom where
  | number
  | int
  | str
  | bool
  | timestamp
  deriving DecidableEq, Repr

namespace Atom

/-- The name an atom type is shown under. -/
def name : Atom → String
  | number => "number"
  | int => "int"
  | str => "str"
  | bool => "bool"
  | timestamp => "timestamp"

/-- The atom type a name stands for. Names are read without regard to the case of ASCII letters, and
some types have two. -/
def ofName? (s : String) : Option Atom :=
  match folded s with
  | "number" | "float" => some number
  | "int" => some int
  | "str" | "string" => some str
  | "bool" => some bool
  | "timestamp" | "date" => some timestamp
  | _ => none

/-- The text of a new atom whose argument declares none. -/
def defaultInput : Atom → String
  | number | int => "0"
  | str => "\"\""
  | bool => "false"
  | timestamp => ""

/-- Why a text is rejected. -/
inductive Rejection where
  | notNumber (raw : String)
  | notInteger (raw : String)
  | notLiteral
  | notBoolean (raw : String)
  | noTimestamp
  | notTimestamp (raw : String)
  deriving DecidableEq, Repr

/-- The wording of a rejection. -/
def Rejection.message : Rejection → String
  | notNumber raw => s!"'{raw}' is not a number"
  | notInteger raw => s!"'{raw}' is not an integer"
  | notLiteral => "expected a double-quoted string"
  | notBoolean raw => s!"'{raw}' is not a boolean"
  | noTimestamp => "a timestamp is required"
  | notTimestamp raw => s!"'{raw}' is not a timestamp"

/-- The normal form of a text, or the reason why it is not well formed. -/
def check (atom : Atom) (raw : String) : Except Rejection String :=
  let body := trimmed raw
  match atom with
  | number => if Number.isFiniteNumeral body.toList then .ok body else .error (.notNumber raw)
  | int => if (Number.readInt? body.toList).isSome then .ok body else .error (.notInteger raw)
  | str => if Literal.isLiteral raw.toList then .ok raw else .error .notLiteral
  | bool =>
    let lowered := folded body
    if lowered = "true" || lowered = "false" then .ok lowered else .error (.notBoolean raw)
  | timestamp =>
    if body.isEmpty then .error .noTimestamp
    else if Timestamp.isTimestamp body.toList then .ok body
    else .error (.notTimestamp raw)

end Atom

end FormulaEdit
