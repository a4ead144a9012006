import FormulaEdit.Number.Bounded
import FormulaEdit.Text.Blank

/-!
# Node paths

A node of a tree is addressed by the positions to take from the root down. The root has the empty
path. A path is written with a dot between its positions, and the root's path is a single dot.
-/

namespace FormulaEdit

open Text

/-- The positions to take from the root down to a node. -/
abbrev NodePath := List Nat

namespace NodePath

/-- The written form of a path. -/
def text (p : NodePath) : String :=
  if p.isEmpty then "." else ".".intercalate (p.map toString)

/-- Read a path from its written form. Blanks may stand around the text and around each position. -/
def read? (s : String) : Option NodePath :=
  let body := trim s.toList
  if body = [] || body = ['.'] then some []
  else (pieces '.' body).mapM fun piece ↦ Number.readIndex? (trim piece)

/-- The path of the parent. The root has none. -/
def parent? (p : NodePath) : Option NodePath :=
  if p.isEmpty then none else some p.dropLast

end NodePath

end FormulaEdit
