import FormulaEdit.Kind.Expr

/-!
# Operators

An operator has a name, an optional return category and named arguments. The argument kinds come in
three stages: as text in a description, as an expression once the text is read, and as a kind once
all names are resolved. One type serves the three stages, with the form of the kinds as a parameter.
-/

namespace FormulaEdit

/-- A named argument of an operator. -/
structure Argument (κ : Type) where
  /-- The name of the argument. -/
  name : String
  /-- What may stand there. -/
  kind : κ
  /-- The text a new atom starts with, if the description gives one. -/
  initial : Option String
  deriving DecidableEq, Repr

/-- An operator that formulas are built from. -/
structure Operator (κ : Type) where
  /-- The name of the operator. -/
  name : String
  /-- The category of its result. Operators of one category may replace each other. -/
  returns : Option String
  /-- The arguments in order. -/
  args : List (Argument κ)
  deriving DecidableEq, Repr

/-- An operator as a description declares it. -/
abbrev Declaration := Operator String

/-- An operator whose kinds are read and not yet resolved. -/
abbrev Draft := Operator KindExpr

end FormulaEdit
