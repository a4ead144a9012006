import FormulaEdit.Editor.Session
import FormulaEdit.Terminal.Style

/-!
# Showing a formula

A formula is shown as its text, the highlighted text if there is any, and one line for each node
that can be seen. A folded node is marked, the operator or variant in use stands out, and a rejected
text is red and comes with the reason.
-/

namespace FormulaEdit

/-- What can be done with a node, on a part of a line. -/
def Control.line (colour : Bool) : Control → String
  | .operatorSelector current choices =>
    Style.bold.paint colour current ++ " [" ++ "|".intercalate choices ++ "]"
  | .variantSelector current variants =>
    " | ".intercalate (variants.mapIdx fun i variant ↦
      if i = current then Style.bold.paint colour variant else variant)
  | .listControls length element => s!"{length} x {element}"
  | .atomInput atom value none => atom.name ++ ": " ++ value
  | .atomInput atom value (some reason) =>
    atom.name ++ ": " ++ Style.red.paint colour value ++ " (" ++ reason ++ ")"

/-- A node on a line. -/
def NodeView.line (colour : Bool) (view : NodeView) : String :=
  String.join (List.replicate view.depth "  ") ++ (if view.isOpen then " " else "+") ++
    Style.dimmed.paint colour (NodePath.text view.path) ++ " " ++
    Style.cyan.paint colour view.label ++ " " ++ view.control.line colour

/-- What came back from the highlighter, on lines. -/
def Code.lines (colour : Bool) : Code → List String
  | .markup value =>
    if value.spans.isEmpty then []
    else [String.ofList (Text.trimEnd (value.painted colour).toList)]
  | .error message => [Style.red.paint colour "highlight:" ++ " " ++ message]

/-- A formula and its nodes on lines. -/
def showLines (colour : Bool) (formula : Formula) (outline : List NodeView) : List String :=
  [Style.boldBrightWhite.paint colour formula.current] ++ formula.code.lines colour ++ [""] ++
    outline.map (·.line colour)

end FormulaEdit
