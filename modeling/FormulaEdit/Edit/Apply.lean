import FormulaEdit.Edit.Basic
import FormulaEdit.Formula.Shape

/-!
# Applying edits

An edit is applied at a cursor on its node. The result is a cursor again, from which the new formula
and the node in focus are read off.

A new operator discards the arguments of the old one. Below the root it has to be of the same
category. A new variant is selected by its written form, with or without regard to case, or by its
position. A text is kept whether it is well formed or not.
-/

namespace FormulaEdit

/-- Where an edit leads and what it did. -/
structure EditStep where
  /-- The formula after the edit and the node in focus. -/
  cursor : Cursor Node
  /-- Whether the formula changed. -/
  changed : Bool
  /-- Why nothing was done, if the edit did not apply. -/
  miss : Option Miss

namespace EditStep

/-- The formula changed. -/
def done (cursor : Cursor Node) : EditStep := ⟨cursor, true, none⟩

/-- There was nothing to change. -/
def idle (cursor : Cursor Node) : EditStep := ⟨cursor, false, none⟩

/-- The edit did not apply. -/
def missed (cursor : Cursor Node) (miss : Miss) : EditStep := ⟨cursor, false, some miss⟩

/-- The edit is not one for this kind of node. -/
def inapplicable (cursor : Cursor Node) (edit : Edit) : EditStep :=
  missed cursor (.notApplicable edit.description cursor.value.label)

/-- What the edit did. -/
def outcome (step : EditStep) : Outcome := ⟨step.changed, step.cursor.path, step.miss⟩

end EditStep

/-- The variant that a selector stands for: the first with this written form, else the first with it
up to case, else the one at this position. -/
def resolveVariant? (variants : List Kind) (selector : String) : Option Nat :=
  let word := Text.trimmed selector
  (variants.findIdx? (·.text = word)).or
    ((variants.findIdx? fun v ↦ Text.folded v.text = Text.folded word).or
      ((Number.readNat? variants.length word.toList).filter (· < variants.length)))

namespace Grammar

/-- The new formula of an operator, for an edit. -/
def freshOperator (g : Grammar) (name : String) : Except EditorError FormulaTree :=
  (g.buildOperator maxDepth name).mapError .build

/-- The new formula of a kind, for an edit. -/
def freshKind (g : Grammar) (kind : Kind) : Except EditorError FormulaTree :=
  (g.build maxDepth kind).mapError .build

/-- Put a new operator in place of the one in focus. -/
def selectOperator (g : Grammar) (c : Cursor Node) (name : String) : Except EditorError EditStep :=
  match c.value.kind with
  | .operator current =>
    if current = name then .ok (.idle c)
    else if !g.has name then .ok (.missed c (.unknownOperator name))
    else if !c.isRoot && !g.interchangeable current name then
      .ok (.missed c (.categoryMismatch current name))
    else
      match g.freshOperator name with
      | .ok fresh =>
        let isOpen := c.value.flags.isOpen
        let fresh := fresh.modify fun node ↦ { node with flags := { node.flags with isOpen } }
        .ok (.done (c.replace fresh))
      | .error e => .error e
  | _ => .ok (.inapplicable c (.selectOperator name))

/-- Put a part into the union in focus, in place of the first one if there is any. -/
def setVariant (c : Cursor Node) (part : FormulaTree) : Cursor Node :=
  match c.focus with
  | .node union (_ :: others) => c.replace (.node union (part :: others))
  | .node union [] => c.replace (.node union [part])

/-- Put a new variant into the union in focus. -/
def selectVariant (g : Grammar) (c : Cursor Node) (selector : String) :
    Except EditorError EditStep :=
  match c.value.kind with
  | .union variants =>
    match (resolveVariant? variants selector).bind fun i ↦ variants[i]?.map (i, ·) with
    | none => .ok (.missed c (.unknownVariant selector))
    | some (index, variant) =>
      let live := c.focus.children.head?.bind fun part ↦
        g.liveVariant? variants part.value.kind
      if live = some index then .ok (.idle c)
      else
        match g.freshKind variant with
        | .ok fresh => .ok (.done (setVariant c fresh))
        | .error e => .error e
  | _ => .ok (.inapplicable c (.selectVariant selector))

/-- Give a text to the atom in focus. Other nodes are left alone. -/
def setInput (c : Cursor Node) (raw : String) : EditStep :=
  let c' := c.modify (·.setInput raw)
  if c'.value = c.value then .idle c else .done c'

/-- Add an element to the list in focus, or after the element in focus. -/
def listAdd (g : Grammar) (c : Cursor Node) : Except EditorError EditStep :=
  match c.value.kind, c.parent?.map Node.kind with
  | .list element, _ =>
    match g.freshKind element with
    | .ok fresh => .ok (.done (c.pushChild fresh))
    | .error e => .error e
  | _, some (.list element) =>
    match g.freshKind element with
    | .ok fresh => .ok (.done (c.insert fresh))
    | .error e => .error e
  | _, _ => .ok (.inapplicable c .listAdd)

/-- Remove the element in focus from its list. -/
def listRemove (c : Cursor Node) : EditStep :=
  match c.parent?.map Node.kind with
  | some (.list _) => .done c.delete
  | _ => .inapplicable c .listRemove

/-- Apply an edit at a cursor. -/
def editAt (g : Grammar) (c : Cursor Node) : Edit → Except EditorError EditStep
  | .selectOperator name => g.selectOperator c name
  | .selectVariant selector => g.selectVariant c selector
  | .setInput raw => .ok (setInput c raw)
  | .listAdd => g.listAdd c
  | .listRemove => .ok (listRemove c)
  | .toggleOpen => .ok (.done (c.modify (·.toggle)))

/-- Apply an edit to a formula. -/
def applyEdit (g : Grammar) (t : FormulaTree) (event : EditEvent) :
    Except EditorError (FormulaTree × Outcome) :=
  match (Cursor.ofTree t).descend event.path with
  | .error _ => .error (.invalidPath event.path)
  | .ok c =>
    match g.editAt c event.edit with
    | .ok step => .ok (step.cursor.tree, step.outcome)
    | .error e => .error e

end Grammar

end FormulaEdit
