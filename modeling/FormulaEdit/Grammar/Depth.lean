import FormulaEdit.Grammar.Basic

/-!
# Default depth

A new node is filled with defaults: an operator gets its arguments, a union its first variant, a
list stays empty. The default depth of an operator is the number of levels that this takes. It is
unknown when the defaults lead back to the operator itself, and an operator deeper than `maxDepth`
is of no use.

Depths once found are kept, so that an operator used many times is walked once.
-/

namespace FormulaEdit

/-- The number of levels a formula built from defaults may have. -/
def maxDepth : Nat := 64

/-- Why an operator cannot be filled with defaults. -/
inductive DepthFault where
  | unavailable (name : String)
  | endless (name : String)
  | tooDeep
  | emptyUnion
  deriving DecidableEq, Repr

/-- The wording of a fault. -/
def DepthFault.message : DepthFault → String
  | .unavailable name => s!"operator '{name}' is not available"
  | .endless name => s!"default instantiation of '{name}' never terminates"
  | .tooDeep => s!"default instantiation is deeper than {maxDepth}"
  | .emptyUnion => "empty union"

namespace Grammar

/-- The depths found so far go along with the walk, which may fail. -/
abbrev DepthWalk := StateT (List (String × Nat)) (Except DepthFault)

/-- The depth of a kind, the depth of an operator being given. -/
def kindDepth (operatorDepth : String → DepthWalk Nat) : Kind → DepthWalk Nat
  | .atom _ | .list _ => return 1
  | .operator name => operatorDepth name
  | .union [] => throw .emptyUnion
  | .union (first :: _) => do return (← kindDepth operatorDepth first) + 1

/-- The depth of the deepest argument. -/
def argsDepth (kindDepth : Kind → DepthWalk Nat) : List (Argument Kind) → Nat → DepthWalk Nat
  | [], deepest => return deepest
  | arg :: args, deepest => do
    let depth ← kindDepth arg.kind
    argsDepth kindDepth args (max deepest depth)

/-- The depth of an operator below the operators `path`. A walk never passes more operators than the
grammar has, which bounds its length. -/
def operatorDepthWithin (g : Grammar) : Nat → List String → String → DepthWalk Nat
  | 0, _, name => throw (.endless name)
  | fuel + 1, path, name => do
    match (← get).lookup name with
    | some depth => return depth
    | none =>
      match g.find? name with
      | none => throw (.unavailable name)
      | some op =>
        if path.contains name then throw (.endless name)
        else
          let deepest ← argsDepth (kindDepth (operatorDepthWithin g fuel (name :: path))) op.args 0
          if maxDepth < deepest + 1 then throw .tooDeep
          else
            modify ((name, deepest + 1) :: ·)
            return deepest + 1

/-- The default depth of an operator. -/
def operatorDepth (g : Grammar) (name : String) : DepthWalk Nat :=
  operatorDepthWithin g (g.operators.length + 1) [] name

/-- The first operator without a default depth, and the reason. -/
def firstEndless (g : Grammar) : List (Operator Kind) → List (String × Nat) →
    Option (String × DepthFault)
  | [], _ => none
  | op :: ops, known =>
    match g.operatorDepth op.name known with
    | .ok (_, known) => firstEndless g ops known
    | .error fault => some (op.name, fault)

end Grammar

end FormulaEdit
