import FormulaEdit.Edit.Apply
import FormulaEdit.Editor.History
import FormulaEdit.Formula.Basic
import FormulaEdit.Formula.Render

/-!
# The editor

An editor holds a formula as a tree, its text and the history of its edits. The text follows every
edit at once. An edit that changes nothing leaves no trace in the history.
-/

namespace FormulaEdit

/-- A formula under edit. -/
structure Editor where
  /-- The operators that may be used. -/
  grammar : Grammar
  /-- The formula. -/
  tree : FormulaTree
  /-- What is shown of it. -/
  formula : Formula
  /-- The formulas before and after this one. -/
  history : History FormulaTree
  /-- What was wrong with the description of the grammar. -/
  startupErrors : List String
  deriving DecidableEq, Repr

namespace Editor

/-- An editor on a formula. -/
def ofTree (grammar : Grammar) (tree : FormulaTree) : Editor where
  grammar
  tree
  formula := .ofText (render tree)
  history := .empty History.defaultLimit
  startupErrors := []

/-- An editor on a new formula of an operator. -/
def startWith (grammar : Grammar) (name : String) : Except EditorError Editor :=
  if grammar.has name then
    match grammar.freshOperator name with
    | .ok tree => .ok (ofTree grammar tree)
    | .error e => .error e
  else .error (.unknownOperator name)

/-- An editor on a new formula of the first operator. -/
def start (grammar : Grammar) : Except EditorError Editor :=
  match grammar.start? with
  | some op => startWith grammar op.name
  | none => .error .emptyGrammar

/-- An editor on a new formula of the given operator, or of the first one if none is given. -/
def launch (grammar : Grammar) (name : Option String) : Except EditorError Editor :=
  match name with
  | some name => startWith grammar name
  | none => start grammar

/-- The text of the formula. -/
def text (e : Editor) : String := e.formula.current

/-- The text of the formula on several lines. -/
def prettyText (e : Editor) : String := renderIndented "  " e.tree

/-- Go over to another formula. -/
def setTree (e : Editor) (tree : FormulaTree) : Editor :=
  { e with tree, formula := e.formula.setText (render tree) }

/-- Go over to another formula and note the edit that led there. -/
def commit (e : Editor) (tree : FormulaTree) (description : String) : Editor :=
  { e.setTree tree with history := e.history.record e.tree description }

/-- Apply an edit. -/
def apply (e : Editor) (event : EditEvent) : Except EditorError (Outcome × Editor) :=
  match e.grammar.applyEdit e.tree event with
  | .error error => .error error
  | .ok (tree, outcome) =>
    .ok (outcome, if outcome.changed then e.commit tree event.edit.description else e)

/-- Start again with another operator. -/
def chooseOperator (e : Editor) (name : String) : Except EditorError (Outcome × Editor) :=
  if e.tree.value.kind = .operator name then .ok (⟨false, [], none⟩, e)
  else if !e.grammar.has name then .ok (⟨false, [], some (.unknownOperator name)⟩, e)
  else
    match e.grammar.freshOperator name with
    | .ok tree => .ok (⟨true, [], none⟩, e.commit tree s!"choose operator {name}")
    | .error error => .error error

/-- Take back the last edit. -/
def undo? (e : Editor) : Option Editor :=
  match e.history.undo? e.tree with
  | some (tree, history) => some { e.setTree tree with history }
  | none => none

/-- Do the edit again that was taken back last. -/
def redo? (e : Editor) : Option Editor :=
  match e.history.redo? e.tree with
  | some (tree, history) => some { e.setTree tree with history }
  | none => none

/-- The text to send now, if it has to be sent, and the editor after that. -/
def tick (e : Editor) : Option String × Editor :=
  let (text, formula) := e.formula.tick
  (text, { e with formula })

/-- Take an answer of the highlighter. -/
def highlight (e : Editor) (answer : Highlighting) : Editor :=
  { e with formula := e.formula.highlight answer }

end Editor

end FormulaEdit
