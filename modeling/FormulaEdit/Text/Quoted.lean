import FormulaEdit.Text.Hidden

/-!
# Quoted text in messages

A message quotes a text between double quotes, with a backslash before a quote or a backslash, short
escapes for common controls, and the code of any other hidden character in braces.
-/

namespace FormulaEdit.Text

/-- The code of a character in a quoted text. -/
def escapedCode (c : Char) : List Char :=
  ['\\', 'u', '\x7b'] ++ Nat.toDigits 16 c.toNat ++ ['\x7d']

/-- One character of a quoted text. -/
def quotedChar (c : Char) : List Char :=
  if c = '\x00' then ['\\', '0']
  else if c = '\t' then ['\\', 't']
  else if c = '\n' then ['\\', 'n']
  else if c = '\r' then ['\\', 'r']
  else if c = '"' || c = '\\' then ['\\', c]
  else if isHidden c then escapedCode c
  else [c]

/-- A text as messages quote it. -/
def quoted (s : String) : String :=
  String.ofList ('"' :: s.toList.flatMap quotedChar ++ ['"'])

end FormulaEdit.Text
