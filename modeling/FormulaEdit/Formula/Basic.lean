import FormulaEdit.Highlight.Basic

/-!
# What is shown of a formula

Besides its text, a formula has the text that was last sent to be highlighted and what came back. A
text is sent on a tick, and only if it differs from the one sent last. So any number of edits
between two ticks leads to one request at most.
-/

namespace FormulaEdit

/-- The last answer to a request. -/
inductive Code where
  | markup (value : Markup)
  | error (message : String)
  deriving DecidableEq, Repr

/-- The code that stands for an answer. -/
def Code.ofHighlighting : Highlighting → Code
  | .ok value => .markup value
  | .error fault => .error fault.message

/-- What is shown of a formula. -/
structure Formula where
  /-- The text of the formula. -/
  current : String
  /-- The text that was sent last. -/
  rendered : String
  /-- What came back last. -/
  code : Code
  deriving DecidableEq, Repr

namespace Formula

/-- A formula of which nothing was sent yet. -/
def ofText (current : String) : Formula := ⟨current, "", .markup .empty⟩

/-- Whether the text differs from the one sent last. -/
def isDirty (formula : Formula) : Bool := formula.current != formula.rendered

/-- Change the text. -/
def setText (formula : Formula) (current : String) : Formula := { formula with current }

/-- The text to send now, if it has to be sent, and the formula after that. -/
def tick (formula : Formula) : Option String × Formula :=
  if formula.isDirty then (some formula.current, { formula with rendered := formula.current })
  else (none, formula)

/-- Take an answer, whichever request it belongs to. -/
def highlight (formula : Formula) (answer : Highlighting) : Formula :=
  { formula with code := .ofHighlighting answer }

end Formula

end FormulaEdit
