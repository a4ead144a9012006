import FormulaEdit.Json.Reader
import FormulaEdit.Markup.Basic

/-!
# Highlighting

A server highlights formulas. It is asked with the text of a formula and answers with a JSON string
that holds a piece of HTML.
-/

namespace FormulaEdit

/-- Why there is no highlighted text. -/
inductive HighlightFault where
  /-- No answer came, for a cause in the words of what carries requests. -/
  | transport (cause : String)
  /-- The server answered with a status other than success. -/
  | status (code : Nat)
  /-- The body of the answer is not a JSON string. -/
  | decode (message : String)
  deriving DecidableEq, Repr

/-- The wording of a fault. -/
def HighlightFault.message : HighlightFault → String
  | .transport cause => "Transport error: " ++ cause
  | .status code => s!"Highlighter responded with status {code}"
  | .decode message => "Invalid response body: " ++ message

/-- What comes of a request. -/
abbrev Highlighting := Except HighlightFault Markup

namespace Highlighting

/-- Read the body of an answer. -/
def ofBody (body : String) : Highlighting :=
  match Json.readString body with
  | .ok html => .ok (.ofHtml html)
  | .error fault => .error (.decode (fault.message body))

/-- Read an answer from its status and its body. -/
def ofAnswer (status : Nat) (body : String) : Highlighting :=
  if 200 ≤ status ∧ status < 300 then ofBody body else .error (.status status)

end Highlighting

namespace Highlight

/-- Where the service is found on a server. -/
def servicePath : String := "/tsformula/pygmentize"

/-- The address of the service on a server. Slashes at the end of the server's address do not
count. -/
def endpoint (base : String) : String :=
  String.ofList (base.toList.reverse.dropWhile (· = '/')).reverse ++ servicePath

/-- The type of the body of a request. -/
def contentType : String := "text/plain; charset=utf-8"

end Highlight

end FormulaEdit
