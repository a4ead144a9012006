import FormulaEdit.Formula.Build

/-!
# Edits

An edit is one thing a user does to one node. Edits that do not apply are not errors: they miss,
leave the formula alone and say why. Errors are paths that lead nowhere and parts that cannot be
built.
-/

namespace FormulaEdit

/-- What to do to a node. -/
inductive Edit where
  /-- Put a new operator in place of an operator. -/
  | selectOperator (name : String)
  /-- Put a new variant into a union. -/
  | selectVariant (selector : String)
  /-- Give a text to an atom. -/
  | setInput (raw : String)
  /-- Add an element to a list, at its end or after another element. -/
  | listAdd
  /-- Remove an element from its list. -/
  | listRemove
  /-- Fold or unfold a node. -/
  | toggleOpen
  deriving DecidableEq, Repr

/-- What an edit does, in words. -/
def Edit.description : Edit → String
  | .selectOperator name => s!"select operator {name}"
  | .selectVariant selector => s!"select variant {selector}"
  | .setInput raw => s!"set input {raw}"
  | .listAdd => "add list element"
  | .listRemove => "remove list element"
  | .toggleOpen => "toggle"

/-- An edit of the node at a path. -/
structure EditEvent where
  /-- Where the node is. -/
  path : NodePath
  /-- What to do to it. -/
  edit : Edit
  deriving DecidableEq, Repr

/-- Why an edit leaves the formula alone. -/
inductive Miss where
  | unknownOperator (name : String)
  | categoryMismatch (current other : String)
  | unknownVariant (selector : String)
  | notApplicable (edit kind : String)
  | emptyHistory (action : String)
  deriving DecidableEq, Repr

/-- The wording of a miss. -/
def Miss.message : Miss → String
  | .unknownOperator name => s!"unknown operator '{name}'"
  | .categoryMismatch current other =>
    s!"'{other}' does not return the same category as '{current}'"
  | .unknownVariant selector => s!"no variant matches '{selector}'"
  | .notApplicable edit kind => s!"cannot {edit} on {kind}"
  | .emptyHistory action => s!"nothing to {action}"

/-- What an edit did. -/
structure Outcome where
  /-- Whether the formula changed. -/
  changed : Bool
  /-- The node that is in focus afterwards. -/
  focus : NodePath
  /-- Why nothing was done, if the edit did not apply. -/
  miss : Option Miss
  deriving DecidableEq, Repr

/-- Why an editor cannot do what it is asked for. -/
inductive EditorError where
  | emptyGrammar
  | unknownOperator (name : String)
  | invalidPath (path : NodePath)
  | malformedPath (text : String)
  | build (fault : BuildFault)
  deriving DecidableEq, Repr

/-- The wording of an error. -/
def EditorError.message : EditorError → String
  | .emptyGrammar => "Grammar declares no usable operator"
  | .unknownOperator name => s!"Unknown operator: {name}"
  | .invalidPath path => "No node at path '" ++ NodePath.text path ++ "'"
  | .malformedPath text => s!"Malformed node path '{text}'"
  | .build fault => "Build error: " ++ fault.message

/-- Read a path that a user has written. A text that is no path is reported as it stands. -/
def NodePath.read (text : String) : Except EditorError NodePath :=
  match NodePath.read? text with
  | some path => .ok path
  | none => .error (.malformedPath text)

end FormulaEdit
