import FormulaEdit.Formula.Node

/-!
# The text of a formula

An operator is written `name(arg, …)`, a list `[item, …]`, a union as its part and an atom as its
text. The compact form stands on one line. The indented form puts the parts of an operator or a list
on lines of their own when one of them has parts itself.
-/

namespace FormulaEdit

/-- Whether a formula has parts to show: it is an operator or a list that is not empty, or a union
with such a part. -/
def isNested : FormulaTree → Bool
  | .node node children =>
    match node.kind, children with
    | .atom _, _ => false
    | .operator _, children => !children.isEmpty
    | .list _, children => !children.isEmpty
    | .union _, live :: _ => isNested live
    | .union _, [] => false

/-- The indent to use for the parts of an operator or a list, if they go on lines of their own. -/
def spread? (indent : Option String) (parts : List FormulaTree) : Option String :=
  if parts.any isNested then indent else none

/-- The level that the parts of an operator or a list stand at. -/
def innerLevel (indent : Option String) (level : Nat) (parts : List FormulaTree) : Nat :=
  if (spread? indent parts).isSome then level + 1 else level

/-- The start of a line at a level. -/
def lineStart (indent : String) (level : Nat) : String :=
  "\n" ++ String.join (List.replicate level indent)

/-- Parts between brackets, on lines of their own if an indent is given. -/
def bracketed (indent : Option String) (level : Nat) (opening closing : String)
    (parts : List String) : String :=
  match indent with
  | none => opening ++ ", ".intercalate parts ++ closing
  | some step =>
    opening ++ ",".intercalate (parts.map (lineStart step (level + 1) ++ ·)) ++
      lineStart step level ++ closing

mutual

/-- The text of a formula at a level, indented if an indent is given. -/
def renderAt (indent : Option String) (level : Nat) : FormulaTree → String
  | .node node children =>
    match node.kind with
    | .atom _ => node.input
    | .operator name =>
      name ++ bracketed (spread? indent children) level "(" ")"
        (renderAll indent (innerLevel indent level children) children)
    | .list _ =>
      bracketed (spread? indent children) level "[" "]"
        (renderAll indent (innerLevel indent level children) children)
    | .union _ =>
      match children with
      | live :: _ => renderAt indent level live
      | [] => ""

/-- The texts of several formulas. -/
def renderAll (indent : Option String) (level : Nat) : List FormulaTree → List String
  | [] => []
  | part :: parts => renderAt indent level part :: renderAll indent level parts

end

/-- The text of a formula on one line. -/
def render (t : FormulaTree) : String := renderAt none 0 t

/-- The text of a formula on several lines. -/
def renderIndented (indent : String) (t : FormulaTree) : String := renderAt (some indent) 0 t

end FormulaEdit
