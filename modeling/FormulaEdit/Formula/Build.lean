import FormulaEdit.Formula.Node
import FormulaEdit.Grammar.Depth

/-!
# New formulas

A new formula is filled with defaults: an operator gets one part for each argument, a union its
first variant, a list no elements and an atom its initial text. Defaults may nest without end, so
the number of levels is bounded.
-/

namespace FormulaEdit

/-- Why a formula cannot be built. -/
inductive BuildFault where
  | unknownOperator (name : String)
  | emptyUnion
  | tooDeep (kind : Kind) (levels : Nat)
  deriving DecidableEq, Repr

/-- The wording of a fault. -/
def BuildFault.message : BuildFault → String
  | .unknownOperator name => s!"Unknown operator '{name}'"
  | .emptyUnion => "Union has no variants"
  | .tooDeep kind levels => "Building '" ++ kind.text ++ s!"' exceeds the maximum depth of {levels}"

namespace Grammar

/-- The new formula of a kind when `remaining` of `levels` levels are left. An initial text goes to
the atom that a kind leads to through unions. -/
def buildWithin (g : Grammar) (levels : Nat) :
    (remaining : Nat) → Kind → (initial : Option String) → Except BuildFault FormulaTree
  | 0, kind, _ => .error (.tooDeep kind levels)
  | remaining + 1, kind, initial =>
    match kind with
    | .atom atom => .ok (.leaf (.ofAtom atom (initial.getD atom.defaultInput)))
    | .operator name =>
      match g.find? name with
      | none => .error (.unknownOperator name)
      | some op =>
        match op.args.mapM fun arg ↦ buildWithin g levels remaining arg.kind arg.initial with
        | .ok parts => .ok (.node (.plain kind) parts)
        | .error fault => .error fault
    | .union [] => .error .emptyUnion
    | .union (first :: _) =>
      match buildWithin g levels remaining first initial with
      | .ok live => .ok (.node (.plain kind) [live])
      | .error fault => .error fault
    | .list _ => .ok (.leaf (.plain kind))

/-- The new formula of a kind. -/
def build (g : Grammar) (levels : Nat) (kind : Kind) : Except BuildFault FormulaTree :=
  g.buildWithin levels levels kind none

/-- The new formula of an operator. -/
def buildOperator (g : Grammar) (levels : Nat) (name : String) : Except BuildFault FormulaTree :=
  if g.has name then g.build levels (.operator name) else .error (.unknownOperator name)

end Grammar

end FormulaEdit
