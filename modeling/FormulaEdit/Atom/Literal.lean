/-!
# Quoted string literals

A string atom is written as a literal: a double quote, then units that are either one character
other than the quote and the backslash or a backslash with any one character after it, then a double
quote.
-/

namespace FormulaEdit.Literal

/-- Whether the text after the opening quote ends with the first quote that no backslash takes. -/
def closes : List Char → Bool
  | [] => false
  | ['"'] => true
  | '"' :: _ :: _ => false
  | ['\\'] => false
  | '\\' :: _ :: rest => closes rest
  | _ :: rest => closes rest

/-- Whether a text is a quoted string literal. -/
def isLiteral : List Char → Bool
  | '"' :: rest => closes rest
  | _ => false

end FormulaEdit.Literal
