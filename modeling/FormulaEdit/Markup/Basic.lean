import FormulaEdit.Html.Parser
import FormulaEdit.Text.Blank

/-!
# Highlighted text

A highlighter answers with a piece of HTML in which `span` elements carry the class of a token. What
matters of it is a flat list of runs of text, each with its class. Runs are kept in a canonical
form: none is empty and neighbours differ in their class. So the list is fixed by the class of each
character.
-/

namespace FormulaEdit

/-- A run of text of one token class, such as `n` for names or `mi` for integers. -/
structure Span where
  /-- The token class, if the text has one. -/
  tokenClass : Option String
  /-- The text. -/
  text : String
  deriving DecidableEq, Repr

/-- Highlighted text. -/
structure Markup where
  /-- The runs of text in order. -/
  spans : List Span
  deriving DecidableEq, Repr, Inhabited

namespace Markup

/-- No text at all. -/
def empty : Markup := ⟨[]⟩

/-- Add a run at the end of a list of runs, to the last one if that has the same class. -/
def addRun (run : Span) : List Span → List Span
  | [] => [run]
  | [last] =>
    if last.tokenClass = run.tokenClass then [{ last with text := last.text ++ run.text }]
    else [last, run]
  | span :: next :: spans => span :: addRun run (next :: spans)

/-- Add text at the end. -/
def push (markup : Markup) (run : Span) : Markup :=
  if run.text.isEmpty then markup else ⟨addRun run markup.spans⟩

/-- The canonical form of a list of runs. -/
def ofRuns (runs : List Span) : Markup :=
  runs.foldl push empty

/-- Text without token classes. -/
def plain (text : String) : Markup :=
  empty.push ⟨none, text⟩

/-- The text without its classes. -/
def text (markup : Markup) : String :=
  String.join (markup.spans.map (·.text))

end Markup

/-! ## From a document -/

namespace Html

/-- The class that an element gives to the text in it. Only `span` elements have one, and a blank
one counts as none. -/
def classOf (name : String) (attrs : List (String × String)) : Option String :=
  if name = "span" then
    ((attrs.lookup "class").map Text.trimmed).filter (!·.isEmpty)
  else none

mutual

/-- The texts of a document in order, each with the class of the nearest element that gives it
one. -/
def Node.runs (inherited : Option String) : Node → List Span
  | .document children => runsOfAll inherited children
  | .element name attrs children => runsOfAll ((classOf name attrs).or inherited) children
  | .text content => [⟨inherited, content⟩]
  | .comment _ => []
  | .other => []

/-- The texts of a list of nodes. -/
def runsOfAll (inherited : Option String) : List Node → List Span
  | [] => []
  | node :: rest => node.runs inherited ++ runsOfAll inherited rest

end

end Html

namespace Markup

/-- The highlighted text of a document. -/
def ofDocument (document : Html.Node) : Markup :=
  ofRuns (document.runs none)

/-- The highlighted text of a piece of HTML, mended like in a browser. -/
def ofHtml (source : String) : Markup :=
  ofDocument (Html.parse source)

end Markup

end FormulaEdit
