/-!
# Blank characters and trimming

Text that people type is compared after its blank margins are taken off. A character is blank here
when it has the Unicode property White_Space, so the no-break space and the ideographic space count,
while the zero-width space and the byte-order mark do not.

Everything is stated on lists of characters; `trimmed` is the same operation on a string.
-/

namespace FormulaEdit.Text

/-- Whether a character has the Unicode property White_Space. -/
def isBlank (c : Char) : Bool :=
  ('\t' ≤ c && c ≤ '\r') || c == ' ' || c == '\u0085' || c == '\u00a0' || c == '\u1680' ||
    ('\u2000' ≤ c && c ≤ '\u200a') || c == '\u2028' || c == '\u2029' || c == '\u202f' ||
    c == '\u205f' || c == '\u3000'

/-- The text without its leading blanks. -/
def trimStart (cs : List Char) : List Char :=
  cs.dropWhile isBlank

/-- The text without its trailing blanks. -/
def trimEnd (cs : List Char) : List Char :=
  (cs.reverse.dropWhile isBlank).reverse

/-- The text without blanks at either end. -/
def trim (cs : List Char) : List Char :=
  trimEnd (trimStart cs)

/-- `trim` on strings. -/
def trimmed (s : String) : String :=
  String.ofList (trim s.toList)

/-- The text with ASCII letters in lower case. All other characters stay as they are. -/
def folded (s : String) : String :=
  String.ofList (s.toList.map Char.toLower)

/-- The pieces of a text between the occurrences of a character; a text without it is one piece. -/
def pieces (sep : Char) : List Char → List (List Char)
  | [] => [[]]
  | c :: cs =>
    if c = sep then [] :: pieces sep cs
    else
      match pieces sep cs with
      | [] => [[c]]
      | p :: ps => (c :: p) :: ps

end FormulaEdit.Text
