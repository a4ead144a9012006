/-!
# Documents

What is left of a piece of HTML once it is read: a tree of elements, texts and nodes that carry no
text.
-/

namespace FormulaEdit.Html

/-- A node of a document. -/
inductive Node where
  | document (children : List Node)
  | element (name : String) (attrs : List (String × String)) (children : List Node)
  | text (content : String)
  | comment (content : String)
  | other
  deriving Repr, Inhabited

end FormulaEdit.Html
