import FormulaEdit.Html.Reference

/-!
# Tokens

The text of a document is cut into tags, comments, doctypes and runs of characters. `nextToken`
takes one token off a text. How it does so depends on the element the text stands in: the text of a
`title` has references but no tags, that of a `style` has neither, and a `script` may hide its own
end tag in what looks like a comment. Outside HTML itself there are sections of plain characters.

A run of characters is blank throughout or holds no blank, since blanks are often treated apart.
-/

namespace FormulaEdit.Html

/-- A tag with its attributes. Of attributes with one name the first counts. -/
structure Tag where
  /-- The name, in lower case. -/
  name : String
  /-- The attributes, their names in lower case. -/
  attrs : List (String × String)
  /-- Whether the tag ends with a slash. -/
  selfClosing : Bool
  deriving DecidableEq, Repr, Inhabited

/-- A token of a document. -/
inductive Token where
  | doctype (legacy : Bool)
  | opening (tag : Tag)
  | closing (name : String)
  | comment (content : String)
  /-- A mistake in the text and the characters that it stands for all the same. -/
  | fault (chars : List Char)
  | blank (chars : List Char)
  | chars (chars : List Char)
  | nul
  | done
  deriving DecidableEq, Repr, Inhabited

/-- How the text of an element is cut into tokens. -/
inductive Lexing where
  | data
  | rcdata (name : String)
  | rawtext (name : String)
  | script
  | plaintext
  | characterData
  deriving DecidableEq, Repr, Inhabited

/-- Whether a character is a blank of the format. -/
def isSpace (c : Char) : Bool :=
  c == ' ' || c == '\n' || c == '\t' || c == '\x0c' || c == '\r'

/-- The replacement character, which stands for what cannot be shown. -/
def replacement : Char := Char.ofNat 0xFFFD

/-- A text with the replacement character for each null. -/
def replaceNul (cs : List Char) : List Char :=
  cs.map fun c ↦ if c = '\x00' then replacement else c

/-- A text without the byte-order mark that it may begin with. -/
def dropMark (cs : List Char) : List Char :=
  match cs with
  | c :: rest => if c.toNat = 0xFEFF then rest else cs
  | [] => []

/-- Line ends become line feeds. -/
def normalizeLines : List Char → List Char
  | '\r' :: '\n' :: rest => '\n' :: normalizeLines rest
  | '\r' :: rest => '\n' :: normalizeLines rest
  | c :: rest => c :: normalizeLines rest
  | [] => []

/-! ## Tags -/

/-- The text of an attribute value, its references resolved. -/
def resolveReferences : Nat → List Char → List Char
  | 0, _ => []
  | _ + 1, [] => []
  | fuel + 1, '&' :: rest =>
    let (chars, rest) := takeReference true rest
    chars ++ resolveReferences fuel rest
  | fuel + 1, c :: rest => c :: resolveReferences fuel rest

/-- The value of an attribute from its text. -/
def attributeValue (cs : List Char) : String :=
  String.ofList (replaceNul (resolveReferences (cs.length + 1) cs))

/-- The name of a tag or an attribute from its text. -/
def markupName (cs : List Char) : String :=
  String.ofList (replaceNul (cs.map Char.toLower))

/-- The value after an equals sign and what follows it. A quoted value that does not end makes the
whole tag break off. -/
def takeValue (cs : List Char) : Option (String × List Char) :=
  match cs.dropWhile isSpace with
  | [] => none
  | '"' :: rest =>
    match rest.dropWhile (· != '"') with
    | [] => none
    | _ :: after => some (attributeValue (rest.takeWhile (· != '"')), after)
  | '\'' :: rest =>
    match rest.dropWhile (· != '\'') with
    | [] => none
    | _ :: after => some (attributeValue (rest.takeWhile (· != '\'')), after)
  | rest =>
    let isPart (c : Char) : Bool := !isSpace c && c != '>'
    some (attributeValue (rest.takeWhile isPart), rest.dropWhile isPart)

/-- Add an attribute unless one of its name is there. -/
def addAttribute (attrs : List (String × String)) (name value : String) : List (String × String) :=
  if (attrs.lookup name).isSome then attrs else attrs ++ [(name, value)]

/-- The attributes of a tag, whether it ends with a slash, and the text after it. There is no tag
when the text ends first. -/
def takeAttributes : Nat → List (String × String) → List Char →
    Option (List (String × String) × Bool × List Char)
  | 0, _, _ => none
  | fuel + 1, attrs, cs =>
    match cs.dropWhile isSpace with
    | [] => none
    | '>' :: rest => some (attrs, false, rest)
    | '/' :: '>' :: rest => some (attrs, true, rest)
    | '/' :: rest => takeAttributes fuel attrs rest
    | first :: rest =>
      let isPart (c : Char) : Bool := !isSpace c && c != '/' && c != '>' && c != '='
      let name := markupName (first :: rest.takeWhile isPart)
      match (rest.dropWhile isPart).dropWhile isSpace with
      | '=' :: after =>
        match takeValue after with
        | none => none
        | some (value, rest) => takeAttributes fuel (addAttribute attrs name value) rest
      | after => takeAttributes fuel (addAttribute attrs name "") after

/-- The tag whose name is next, and the text after it. -/
def takeTag (cs : List Char) : Option (Tag × List Char) :=
  let isPart (c : Char) : Bool := !isSpace c && c != '/' && c != '>'
  let name := markupName (cs.takeWhile isPart)
  match takeAttributes (cs.length + 1) [] (cs.dropWhile isPart) with
  | some (attrs, selfClosing, rest) => some (⟨name, attrs, selfClosing⟩, rest)
  | none => none

/-! ## Comments and doctypes -/

/-- The content of a comment and the text after it. -/
def takeComment : List Char → List Char × List Char
  | '-' :: '-' :: '>' :: rest => ([], rest)
  | '-' :: '-' :: '!' :: '>' :: rest => ([], rest)
  | c :: rest =>
    let (content, after) := takeComment rest
    (c :: content, after)
  | [] => ([], [])

/-- A comment that ends at the first closing bracket. -/
def takeBogusComment (cs : List Char) : Token × List Char :=
  (.comment (String.ofList (replaceNul (cs.takeWhile (· != '>')))),
    (cs.dropWhile (· != '>')).drop 1)

/-- The text after a word, which is matched without regard to case. -/
def dropWord? : List Char → List Char → Option (List Char)
  | [], cs => some cs
  | w :: word, c :: cs => if c.toLower = w then dropWord? word cs else none
  | _ :: _, [] => none

/-- Public identifiers whose documents are laid out in the old way, without what follows them. -/
def legacyStarts : List String :=
  ["-//as//dtd html 3.0 aswedit + extensions//",
    "-//advasoft ltd//dtd html 3.0 aswedit + extensions//", "-//ietf//dtd html 2.0 level 1//",
    "-//ietf//dtd html 2.0 level 2//", "-//ietf//dtd html 2.0 strict level 1//",
    "-//ietf//dtd html 2.0 strict level 2//", "-//ietf//dtd html 2.0 strict//",
    "-//ietf//dtd html 2.0//", "-//ietf//dtd html 2.1e//", "-//ietf//dtd html 3.0//",
    "-//ietf//dtd html 3.2 final//", "-//ietf//dtd html 3.2//", "-//ietf//dtd html 3//",
    "-//ietf//dtd html level 0//", "-//ietf//dtd html level 1//", "-//ietf//dtd html level 2//",
    "-//ietf//dtd html level 3//", "-//ietf//dtd html strict level 0//",
    "-//ietf//dtd html strict level 1//", "-//ietf//dtd html strict level 2//",
    "-//ietf//dtd html strict level 3//", "-//ietf//dtd html strict//", "-//ietf//dtd html//",
    "-//metrius//dtd metrius presentational//",
    "-//microsoft//dtd internet explorer 2.0 html strict//",
    "-//microsoft//dtd internet explorer 2.0 html//",
    "-//microsoft//dtd internet explorer 2.0 tables//",
    "-//microsoft//dtd internet explorer 3.0 html strict//",
    "-//microsoft//dtd internet explorer 3.0 html//",
    "-//microsoft//dtd internet explorer 3.0 tables//", "-//netscape comm. corp.//dtd html//",
    "-//netscape comm. corp.//dtd strict html//", "-//o'reilly and associates//dtd html 2.0//",
    "-//o'reilly and associates//dtd html extended 1.0//",
    "-//o'reilly and associates//dtd html extended relaxed 1.0//",
    "-//softquad software//dtd hotmetal pro 6.0::19990601::extensions to html 4.0//",
    "-//softquad//dtd hotmetal pro 4.0::19971010::extensions to html 4.0//",
    "-//spyglass//dtd html 2.0 extended//", "-//sq//dtd html 2.0 hotmetal + extensions//",
    "-//sun microsystems corp.//dtd hotjava html//",
    "-//sun microsystems corp.//dtd hotjava strict html//", "-//w3c//dtd html 3 1995-03-24//",
    "-//w3c//dtd html 3.2 draft//", "-//w3c//dtd html 3.2 final//", "-//w3c//dtd html 3.2//",
    "-//w3c//dtd html 3.2s draft//", "-//w3c//dtd html 4.0 frameset//",
    "-//w3c//dtd html 4.0 transitional//", "-//w3c//dtd html experimental 19960712//",
    "-//w3c//dtd html experimental 970421//", "-//w3c//dtd w3 html//", "-//w3o//dtd w3 html 3.0//",
    "-//webtechs//dtd mozilla html 2.0//", "-//webtechs//dtd mozilla html//"]

/-- Public identifiers whose documents are laid out in the old way. -/
def legacyPublic : List String :=
  ["-//w3o//dtd w3 html strict 3.0//en//", "-/w3c/dtd html 4.0 transitional/en", "html"]

/-- Public identifiers whose documents are laid out in the old way if there is no system
identifier. -/
def legacyWithoutSystem : List String :=
  ["-//w3c//dtd html 4.01 frameset//", "-//w3c//dtd html 4.01 transitional//"]

/-- The system identifier whose documents are laid out in the old way. -/
def legacySystem : String := "http://www.ibm.com/data/dtd/v11/ibmxhtml1-transitional.dtd"

/-- Whether a document with this doctype is laid out in the old way. -/
def isLegacy (name : String) (publicId systemId : Option String) : Bool :=
  let pub := (publicId.getD "").toLower
  let startsWith (p : String) : Bool := (dropWord? p.toList pub.toList).isSome
  name != "html" || legacyPublic.contains pub || systemId.map String.toLower == some legacySystem ||
    (publicId.isSome && legacyStarts.any startsWith) ||
    (publicId.isSome && systemId.isNone && legacyWithoutSystem.any startsWith)

/-- A quoted identifier and the text after it. -/
def takeQuoted? : List Char → Option (String × List Char)
  | q :: rest =>
    if q = '"' || q = '\'' then
      match rest.dropWhile (· != q) with
      | _ :: after => some (String.ofList (rest.takeWhile (· != q)), after)
      | [] => none
    else none
  | [] => none

/-- Whether the identifiers of a doctype make its document laid out in the old way. -/
def legacyIds (name : String) (cs : List Char) : Bool :=
  match cs with
  | [] => isLegacy name none none
  | _ =>
    match dropWord? "public".toList cs with
    | some rest =>
      match takeQuoted? (rest.dropWhile isSpace) with
      | none => true
      | some (publicId, after) =>
        match after.dropWhile isSpace with
        | [] => isLegacy name (some publicId) none
        | after =>
          match takeQuoted? after with
          | some (systemId, _) => isLegacy name (some publicId) (some systemId)
          | none => true
    | none =>
      match dropWord? "system".toList cs with
      | some rest =>
        match takeQuoted? (rest.dropWhile isSpace) with
        | some (systemId, _) => isLegacy name none (some systemId)
        | none => true
      | none => true

/-- A doctype, its word already taken. -/
def takeDoctype (cs : List Char) : Token × List Char :=
  let content := (cs.takeWhile (· != '>')).dropWhile isSpace
  let name := markupName (content.takeWhile (!isSpace ·))
  let ids := (content.dropWhile (!isSpace ·)).dropWhile isSpace
  match cs.dropWhile (· != '>') with
  | [] => (.doctype true, [])
  | _ :: rest => (.doctype (content.isEmpty || legacyIds name ids), rest)

/-! ## Markup -/

/-- A run of characters as a token. -/
def charsToken (cs : List Char) : Token :=
  if cs.all isSpace then .blank cs else .chars cs

/-- What follows an ampersand outside a tag. -/
def takeReferenceToken (cs : List Char) : Token × List Char :=
  let (chars, rest) := takeReference false cs
  (if lacksSemicolon cs then .fault chars else charsToken chars, rest)

/-- What follows a less-than sign and an exclamation mark. -/
def takeDeclaration (cs : List Char) : Token × List Char :=
  match cs with
  | '-' :: '-' :: '>' :: rest => (.comment "", rest)
  | '-' :: '-' :: '-' :: '>' :: rest => (.comment "", rest)
  | '-' :: '-' :: rest =>
    let (content, after) := takeComment rest
    (.comment (String.ofList (replaceNul content)), after)
  | _ =>
    match dropWord? "doctype".toList cs with
    | some rest => takeDoctype rest
    | none => takeBogusComment cs

/-- What follows a less-than sign. An end tag without a name stands for nothing. -/
def takeMarkup (cs : List Char) : Token × List Char :=
  match cs with
  | '!' :: rest => takeDeclaration rest
  | '/' :: rest =>
    match rest with
    | [] => (.chars ['<', '/'], [])
    | '>' :: after => (.fault [], after)
    | c :: _ =>
      if c.isAlpha then
        match takeTag rest with
        | some (tag, after) => (.closing tag.name, after)
        | none => (.done, [])
      else takeBogusComment rest
  | '?' :: _ => takeBogusComment cs
  | c :: _ =>
    if c.isAlpha then
      match takeTag cs with
      | some (tag, after) => (.opening tag, after)
      | none => (.done, [])
    else (.chars ['<'], cs)
  | [] => (.chars ['<'], [])

/-! ## The text of elements -/

/-- Whether the end tag of an element is next. -/
def isEndTag (name : String) (cs : List Char) : Bool :=
  match dropWord? ('<' :: '/' :: name.toList) cs with
  | some (c :: _) => isSpace c || c = '/' || c = '>'
  | _ => false

/-- The longest blank or unblank run of characters that may not be special. -/
def takeRun (isSpecial : Char → Bool) (cs : List Char) : Token × List Char :=
  match cs with
  | [] => (.done, [])
  | c :: _ =>
    let isPart (d : Char) : Bool := isSpace d == isSpace c && !isSpecial d
    (charsToken (cs.takeWhile isPart), cs.dropWhile isPart)

/-- The end tag that is next. -/
def takeEndTag (cs : List Char) : Token × List Char :=
  match takeTag (cs.drop 2) with
  | some (tag, rest) => (.closing tag.name, rest)
  | none => (.done, [])

/-- The next token of a text with references but no tags, up to the end tag of its element. -/
def takeRcdata (name : String) (cs : List Char) : Token × List Char :=
  match cs with
  | '<' :: rest => if isEndTag name cs then takeEndTag cs else (.chars ['<'], rest)
  | '&' :: rest => takeReferenceToken rest
  | '\x00' :: rest => (.chars [replacement], rest)
  | _ => takeRun (fun c ↦ c == '<' || c == '&' || c == '\x00') cs

/-- The next token of a text without references and tags, up to the end tag of its element. -/
def takeRawtext (name : String) (cs : List Char) : Token × List Char :=
  match cs with
  | '<' :: rest => if isEndTag name cs then takeEndTag cs else (.chars ['<'], rest)
  | '\x00' :: rest => (.chars [replacement], rest)
  | _ => takeRun (fun c ↦ c == '<' || c == '\x00') cs

/-- The part of a script that looks like a comment, and a part of it that looks like a script. -/
inductive ScriptState where
  | plain
  | escaped (dashes : Nat)
  | doubled (dashes : Nat)
  deriving DecidableEq, Repr

/-- Whether the word `script` is next and ends there. -/
def isScriptWord (cs : List Char) : Bool :=
  match dropWord? "script".toList cs with
  | some (c :: _) => isSpace c || c = '/' || c = '>'
  | _ => false

/-- The state after one character of a script, which may look at the text after it. -/
def ScriptState.next (state : ScriptState) (c : Char) (rest : List Char) : ScriptState :=
  match state with
  | .plain => .plain
  | .escaped dashes =>
    if c = '-' then .escaped (min 2 (dashes + 1))
    else if c = '>' && dashes = 2 then .plain
    else if c = '<' && isScriptWord rest then .doubled 0
    else .escaped 0
  | .doubled dashes =>
    if c = '-' then .doubled (min 2 (dashes + 1))
    else if c = '>' && dashes = 2 then .plain
    else if c = '<' && (match rest with | '/' :: after => isScriptWord after | _ => false) then
      .escaped 0
    else .doubled 0

/-- The content of a script up to its end tag. -/
def takeScript : ScriptState → List Char → List Char × List Char
  | _, [] => ([], [])
  | .plain, '<' :: '!' :: '-' :: '-' :: rest =>
    let (content, after) := takeScript (.escaped 2) rest
    ('<' :: '!' :: '-' :: '-' :: content, after)
  | state, c :: rest =>
    let ends : Bool :=
      match state with
      | .doubled _ => false
      | _ => isEndTag "script" (c :: rest)
    if ends then ([], c :: rest)
    else
      let (content, after) := takeScript (state.next c rest) rest
      (c :: content, after)

/-- The next token of a text. -/
def nextToken (lexing : Lexing) (cs : List Char) : Token × List Char :=
  match lexing with
  | .data =>
    match cs with
    | '<' :: rest => takeMarkup rest
    | '&' :: rest => takeReferenceToken rest
    | '\x00' :: rest => (.nul, rest)
    | cs => takeRun (fun c ↦ c == '<' || c == '&' || c == '\x00') cs
  | .rcdata name => takeRcdata name cs
  | .rawtext name => takeRawtext name cs
  | .script =>
    if isEndTag "script" cs then takeEndTag cs
    else
      match takeScript .plain cs with
      | ([], _) => (.done, [])
      | (content, rest) => (.chars (replaceNul content), rest)
  | .plaintext =>
    match cs with
    | '\x00' :: rest => (.chars [replacement], rest)
    | _ => takeRun (· == '\x00') cs
  | .characterData =>
    match cs with
    | ']' :: rest => (.chars [']'], rest)
    | '\x00' :: rest => (.nul, rest)
    | _ => takeRun (fun c ↦ c == ']' || c == '\x00') cs

end FormulaEdit.Html
