import FormulaEdit.Html.ReferenceTable
import FormulaEdit.Text.Hidden
import Std.Data.HashMap

/-!
# Character references

An ampersand may start a reference to a character, by name or by code. `takeReference` reads what
follows the ampersand: the characters referred to and the text after the reference. A text that is
no reference stands for itself.
-/

namespace FormulaEdit.Html

open Text

/-- The codes after the equals sign of an entry. -/
def entryCodes (cs : List Char) : List Char :=
  let (codes, last) := cs.foldr
    (fun c (codes, code) ↦ if c = '+' then (code :: codes, []) else (codes, c :: code))
    ([], [])
  (last :: codes).map fun code ↦ Char.ofNat (hexValue code)

/-- The characters of each named reference. -/
def references : Std.HashMap String (List Char) :=
  (tableEntries referenceTable.toList).foldl
    (fun map entry ↦ map.insert (String.ofList (entry.takeWhile (· != '=')))
      (entryCodes ((entry.dropWhile (· != '=')).drop 1)))
    ∅

/-- The number of characters of the longest name. -/
def longestName : Nat := 32

/-- The longest known name among the first `n` characters of a text, with what it stands for. -/
def longestReference? (cs : List Char) : Nat → Option (Nat × List Char)
  | 0 => none
  | n + 1 =>
    match references[String.ofList (cs.take (n + 1))]? with
    | some chars => some (n + 1, chars)
    | none => longestReference? cs n

/-- Read a named reference. In an attribute, a name without a semicolon that runs on into a word or
an equals sign stands for itself. -/
def namedReference (inAttribute : Bool) (cs : List Char) : List Char × List Char :=
  let word := (cs.takeWhile Char.isAlphanum).length
  let size := if (cs.drop word).head? = some ';' then word + 1 else word
  match longestReference? cs (min size longestName) with
  | none => (['&'], cs)
  | some (n, chars) =>
    let rest := cs.drop n
    let runsOn := rest.head?.any fun c ↦ c = '=' || c.isAlphanum
    if inAttribute && (cs.take n).getLast? != some ';' && runsOn then (['&'], cs)
    else (chars, rest)

/-- The characters that the codes from 80 to 9F stand for, where they differ from the code. -/
def legacyCodes : List (Nat × Nat) :=
  [(0x80, 0x20AC), (0x82, 0x201A), (0x83, 0x0192), (0x84, 0x201E), (0x85, 0x2026), (0x86, 0x2020),
    (0x87, 0x2021), (0x88, 0x02C6), (0x89, 0x2030), (0x8A, 0x0160), (0x8B, 0x2039), (0x8C, 0x0152),
    (0x8E, 0x017D), (0x91, 0x2018), (0x92, 0x2019), (0x93, 0x201C), (0x94, 0x201D), (0x95, 0x2022),
    (0x96, 0x2013), (0x97, 0x2014), (0x98, 0x02DC), (0x99, 0x2122), (0x9A, 0x0161), (0x9B, 0x203A),
    (0x9C, 0x0153), (0x9E, 0x017E), (0x9F, 0x0178)]

/-- The character of a code. A code that no character has stands for the replacement character. -/
def codeChar (code : Nat) : Char :=
  match legacyCodes.lookup code with
  | some c => Char.ofNat c
  | none =>
    if code = 0 || 0x10FFFF < code || (0xD800 ≤ code && code ≤ 0xDFFF) then Char.ofNat 0xFFFD
    else Char.ofNat code

/-- Whether a character is a hexadecimal digit. -/
def isHexDigit (c : Char) : Bool :=
  c.isDigit || ('a' ≤ c && c ≤ 'f') || ('A' ≤ c && c ≤ 'F')

/-- The text after an optional semicolon. -/
def dropSemicolon : List Char → List Char
  | ';' :: rest => rest
  | cs => cs

/-- The mark of the base of a code, the text after it, the base and its digits. -/
def codeBase (cs : List Char) : List Char × List Char × Nat × (Char → Bool) :=
  match cs with
  | 'x' :: rest => (['x'], rest, 16, isHexDigit)
  | 'X' :: rest => (['X'], rest, 16, isHexDigit)
  | _ => ([], cs, 10, Char.isDigit)

/-- Read a reference by code; the number sign is taken. -/
def codeReference (cs : List Char) : List Char × List Char :=
  let (mark, digits, base, isDigit) := codeBase cs
  let run := digits.takeWhile isDigit
  if run.isEmpty then ('&' :: '#' :: mark, digits)
  else
    let code := run.foldl
      (fun n c ↦
        min (base * n + (if c.isDigit then c.toNat - 48 else c.toLower.toNat - 87)) 0x110000) 0
    ([codeChar code], dropSemicolon (digits.dropWhile isDigit))

/-- Whether what follows an ampersand is a reference by code that lacks its semicolon. -/
def lacksSemicolon (cs : List Char) : Bool :=
  match cs with
  | '#' :: rest =>
    let (_, digits, _, isDigit) := codeBase rest
    !(digits.takeWhile isDigit).isEmpty && (digits.dropWhile isDigit).head? != some ';'
  | _ => false

/-- Read what follows an ampersand: the characters it stands for and the rest of the text. -/
def takeReference (inAttribute : Bool) (cs : List Char) : List Char × List Char :=
  match cs with
  | '#' :: rest => codeReference rest
  | c :: _ => if c.isAlphanum then namedReference inAttribute cs else (['&'], cs)
  | [] => (['&'], [])

end FormulaEdit.Html
