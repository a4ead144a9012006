import FormulaEdit.Formula.Node
import FormulaEdit.Grammar.Basic

/-!
# The shape of a formula

A formula has the right shape when every operator is known and has its arguments, every union has
one part that is one of its variants, atoms have no parts and every part fits the place it stands
in. A place declared for an operator takes any operator of the same category.
-/

namespace FormulaEdit

/-- What is wrong at a node. -/
inductive ShapeCause where
  | unknownOperator (name : String)
  | wrongArity (name : String) (expected found : Nat)
  | variantCount (found : Nat)
  | noVariant (found : Kind)
  | atomChildren
  | misfit (expected found : Kind)
  deriving DecidableEq, Repr

/-- The wording of a cause. -/
def ShapeCause.message : ShapeCause → String
  | .unknownOperator name => s!"unknown operator '{name}'"
  | .wrongArity name expected found => s!"'{name}' takes {expected} arguments, found {found}"
  | .variantCount found => s!"union has {found} live variants"
  | .noVariant found => "'" ++ found.text ++ "' is not a variant"
  | .atomChildren => "atoms have no children"
  | .misfit expected found => "expected " ++ expected.text ++ ", found " ++ found.text

/-- The first node at which the shape is wrong. -/
structure ShapeFault where
  /-- Where the node is. -/
  path : NodePath
  /-- What is wrong with it. -/
  cause : ShapeCause
  deriving DecidableEq, Repr

/-- The wording of a fault. -/
def ShapeFault.message (fault : ShapeFault) : String :=
  "Malformed tree at '" ++ NodePath.text fault.path ++ "': " ++ fault.cause.message

namespace Grammar

/-- Whether a node of one kind may stand in a place declared as another. -/
def fits (g : Grammar) (expected found : Kind) : Bool :=
  expected = found ||
    match expected, found with
    | .operator declared, .operator live => g.interchangeable declared live
    | _, _ => false

/-- The variant of a union that its part belongs to: the one of the same kind, else the first that
the part fits. -/
def liveVariant? (g : Grammar) (variants : List Kind) (found : Kind) : Option Nat :=
  (variants.findIdx? (· = found)).or (variants.findIdx? (g.fits · found))

/-- What the parts of a node should be. -/
def places (g : Grammar) (kind : Kind) (children : List FormulaTree) :
    Except ShapeCause (List Kind) :=
  match kind with
  | .atom _ => if children.isEmpty then .ok [] else .error .atomChildren
  | .operator name =>
    match g.find? name with
    | none => .error (.unknownOperator name)
    | some op =>
      if op.args.length = children.length then .ok (op.args.map (·.kind))
      else .error (.wrongArity name op.args.length children.length)
  | .union variants =>
    match children with
    | [live] =>
      match (g.liveVariant? variants live.value.kind).bind fun index ↦ variants[index]? with
      | some variant => .ok [variant]
      | none => .error (.noVariant live.value.kind)
    | _ => .error (.variantCount children.length)
  | .list element => .ok (children.map fun _ ↦ element)

mutual

/-- The first fault in the formula at `path`. -/
def shapeFault? (g : Grammar) (path : NodePath) : FormulaTree → Option ShapeFault
  | .node node children =>
    match g.places node.kind children with
    | .error cause => some ⟨path, cause⟩
    | .ok places => partsFault? g path 0 places children

/-- The first fault in the parts from position `index` on, given what they should be. -/
def partsFault? (g : Grammar) (path : NodePath) (index : Nat) (places : List Kind) :
    List FormulaTree → Option ShapeFault
  | [] => none
  | part :: parts =>
    match places with
    | [] => none
    | expected :: places =>
      if g.fits expected part.value.kind then
        (shapeFault? g (path ++ [index]) part).or (partsFault? g path (index + 1) places parts)
      else some ⟨path ++ [index], .misfit expected part.value.kind⟩

end

/-- The first fault in the shape of a formula. -/
def faultIn? (g : Grammar) (t : FormulaTree) : Option ShapeFault :=
  g.shapeFault? [] t

end Grammar

end FormulaEdit
