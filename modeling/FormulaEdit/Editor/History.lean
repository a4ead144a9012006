/-!
# History

The history of a document is kept as two lists of states: those that were left behind by an edit,
and those that were left behind by going back. Each comes with the edit that leads to or away from
it. A new edit forgets the states ahead. The number of states behind may be bounded, and then the
oldest one goes first.
-/

namespace FormulaEdit

/-- A state and the edit that left it behind. -/
structure Snapshot (σ : Type) where
  /-- The state. -/
  state : σ
  /-- What the edit did. -/
  description : String
  deriving DecidableEq, Repr

/-- The states behind and ahead of the present one. -/
structure History (σ : Type) where
  /-- The states behind, the most recent first. -/
  past : List (Snapshot σ)
  /-- The states ahead, the next one first. -/
  future : List (Snapshot σ)
  /-- How many states to keep behind. Zero stands for all of them. -/
  limit : Nat
  deriving DecidableEq, Repr

namespace History

variable {σ : Type}

/-- The number of states that are kept if nothing else is said. -/
def defaultLimit : Nat := 100

/-- A history without states. -/
def empty (limit : Nat) : History σ := ⟨[], [], limit⟩

/-- Note the state that an edit replaces. -/
def record (h : History σ) (previous : σ) (description : String) : History σ :=
  let past := ⟨previous, description⟩ :: h.past
  { h with
    past := if 0 < h.limit ∧ h.limit < past.length then past.dropLast else past
    future := [] }

/-- Go back: the state to go to, and the history from there. -/
def undo? (h : History σ) (current : σ) : Option (σ × History σ) :=
  match h.past with
  | [] => none
  | last :: past =>
    some (last.state, { h with past, future := ⟨current, last.description⟩ :: h.future })

/-- Go forward again: the state to go to, and the history from there. -/
def redo? (h : History σ) (current : σ) : Option (σ × History σ) :=
  match h.future with
  | [] => none
  | next :: future =>
    some (next.state, { h with past := ⟨current, next.description⟩ :: h.past, future })

/-- Whether there is a state to go back to. -/
def canUndo (h : History σ) : Bool := !h.past.isEmpty

/-- Whether there is a state to go forward to. -/
def canRedo (h : History σ) : Bool := !h.future.isEmpty

/-- Forget all states. -/
def clear (h : History σ) : History σ := empty h.limit

/-- The edit that going back takes back. -/
def undoDescription? (h : History σ) : Option String := h.past.head?.map (·.description)

/-- The edit that going forward does again. -/
def redoDescription? (h : History σ) : Option String := h.future.head?.map (·.description)

end History

end FormulaEdit
