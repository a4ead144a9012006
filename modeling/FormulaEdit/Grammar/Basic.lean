import FormulaEdit.Grammar.Operator

/-!
# Grammars

A grammar is the list of operators that formulas may use, in the order of their declaration. The
first one is what an empty formula starts from. At the root of a formula any operator may be chosen;
below it an operator gives way only to those of the same return category.
-/

namespace FormulaEdit

/-- The operators that formulas may use. -/
structure Grammar where
  /-- The operators in the order of declaration. -/
  operators : List (Operator Kind)
  deriving DecidableEq, Repr

namespace Grammar

/-- The grammar without operators. -/
def empty : Grammar := ⟨[]⟩

/-- The operator of a name. -/
def find? (g : Grammar) (name : String) : Option (Operator Kind) :=
  g.operators.find? (·.name = name)

/-- Whether an operator of this name is there. -/
def has (g : Grammar) (name : String) : Bool :=
  (g.find? name).isSome

/-- The grammar with one more operator at the end, unless its name is taken. -/
def insert? (g : Grammar) (op : Operator Kind) : Option Grammar :=
  if g.has op.name then none else some ⟨g.operators ++ [op]⟩

/-- The names of the operators. -/
def names (g : Grammar) : List String :=
  g.operators.map (·.name)

/-- The operators of a category. -/
def returning (g : Grammar) (category : Option String) : List (Operator Kind) :=
  g.operators.filter (·.returns = category)

/-- The operator an empty formula starts from. -/
def start? (g : Grammar) : Option (Operator Kind) :=
  g.operators.head?

/-- The operators that may stand in place of another, at the root or below it. -/
def alternatives (g : Grammar) (name : String) (atRoot : Bool) : List (Operator Kind) :=
  if atRoot then g.operators
  else
    match g.find? name with
    | some op => g.returning op.returns
    | none => []

/-- Whether one operator may replace another below the root. -/
def interchangeable (g : Grammar) (name other : String) : Bool :=
  match g.find? name, g.find? other with
  | some a, some b => a.returns = b.returns
  | _, _ => false

end Grammar

end FormulaEdit
