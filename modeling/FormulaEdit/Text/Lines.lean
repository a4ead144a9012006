import FormulaEdit.Text.Blank

/-!
# Lines

A line ends with a line feed, and a carriage return right before that is not part of it. The last
line of a text may go without a line feed.
-/

namespace FormulaEdit.Text

/-- The lines of a text. -/
def lines (text : String) : List String :=
  let parts := pieces '\n' text.toList
  let ended := parts.dropLast.map fun part ↦
    if part.getLast? = some '\r' then part.dropLast else part
  let rest := parts.getLast?.getD []
  (ended ++ if rest.isEmpty then [] else [rest]).map String.ofList

end FormulaEdit.Text
