import FormulaEdit.Html.Dom
import FormulaEdit.Html.Token

/-!
# The builder of a document

The builder holds the document so far, the stack of open elements, the list of formatting elements
that stay in force across other elements, and what it expects next. The operations here are those
that the rules for tokens are made of: questions about the stack, insertion at the proper place, and
the adoption of misnested formatting elements.
-/

namespace FormulaEdit.Html

/-- What the builder expects next. -/
inductive Mode where
  | initial
  | beforeHtml
  | beforeHead
  | inHead
  | afterHead
  | inBody
  | text
  | inTable
  | inTableText
  | inCaption
  | inColumnGroup
  | inTableBody
  | inRow
  | inCell
  | inSelect
  | inSelectInTable
  | inTemplate
  | afterBody
  | inFrameset
  | afterFrameset
  | afterAfterBody
  | afterAfterFrameset
  deriving DecidableEq, Repr, Inhabited

/-- An entry of the list of formatting elements. A marker ends the part that is in force. -/
inductive Formatting where
  | marker
  | element (id : Nat) (tag : Tag)
  deriving Repr, Inhabited

/-- A document under construction and what is needed to go on with it. -/
structure Builder where
  /-- The document so far. -/
  dom : Dom
  /-- The open elements, outermost first. -/
  stack : Array Nat
  /-- What is expected next. -/
  mode : Mode
  /-- What was expected before a run of text. -/
  resume : Mode
  /-- What is expected in each open template, outermost first. -/
  templateModes : Array Mode
  /-- Text in a table that waits for its end. -/
  pending : List (List Char)
  /-- The head element. -/
  head : Option Nat
  /-- The open form. -/
  form : Option Nat
  /-- Whether a frameset may still replace the body. -/
  framesetOk : Bool
  /-- The formatting elements, oldest first. -/
  formatting : Array Formatting
  /-- Whether the document is laid out in the old way. -/
  legacy : Bool
  /-- Whether a line feed that comes next is dropped. -/
  ignoreLineFeed : Bool
  /-- Whether content goes in front of an open table. -/
  fostering : Bool
  /-- How the text that follows is cut into tokens. -/
  lexing : Lexing
  deriving Inhabited

/-- The builder of an empty document. -/
def Builder.start : Builder where
  dom := .start
  stack := #[]
  mode := .initial
  resume := .initial
  templateModes := #[]
  pending := []
  head := none
  form := none
  framesetOk := true
  formatting := #[]
  legacy := false
  ignoreLineFeed := false
  fostering := false
  lexing := .data

/-- A step of construction. -/
abbrev Build := StateM Builder

namespace Build

/-! ## Elements -/

/-- The vocabulary and the name of a node. A node that is no element has no name. -/
def nameOf (dom : Dom) (id : Nat) : Space × String :=
  match dom.datum id with
  | .element space name _ => (space, name)
  | _ => (.html, "")

/-- The value of an attribute of a node. -/
def attributeOf (dom : Dom) (id : Nat) (key : String) : Option String :=
  match dom.datum id with
  | .element _ _ attrs => attrs.lookup key
  | _ => none

/-- Whether a node is an HTML element with one of the given names. -/
def isOneOf (dom : Dom) (names : List String) (id : Nat) : Bool :=
  let (space, name) := nameOf dom id
  space = .html && names.contains name

/-- Elements that end the search for a place where a tag belongs. -/
def specialNames : List String :=
  ["address", "applet", "area", "article", "aside", "base", "basefont", "bgsound", "blockquote",
    "body", "br", "button", "caption", "center", "col", "colgroup", "dd", "details", "dir", "div",
    "dl", "dt", "embed", "fieldset", "figcaption", "figure", "footer", "form", "frame", "frameset",
    "h1", "h2", "h3", "h4", "h5", "h6", "head", "header", "hgroup", "hr", "html", "iframe", "img",
    "input", "isindex", "li", "link", "listing", "main", "marquee", "menu", "meta", "nav",
    "noembed", "noframes", "noscript", "object", "ol", "p", "param", "plaintext", "pre", "script",
    "section", "select", "source", "style", "summary", "table", "tbody", "td", "template",
    "textarea", "tfoot", "th", "thead", "title", "tr", "track", "ul", "wbr", "xmp"]

/-- Elements of MathML whose content is text. -/
def mathTextNames : List String := ["mi", "mo", "mn", "ms", "mtext"]

/-- Elements of SVG whose content is HTML. -/
def svgHtmlNames : List String := ["foreignobject", "desc", "title"]

/-- Whether a node ends the search for a place where a tag belongs. -/
def isSpecial (dom : Dom) (id : Nat) : Bool := isOneOf dom specialNames id

/-- Whether an element is a place in MathML where text belongs to HTML. -/
def isMathText (dom : Dom) (id : Nat) : Bool :=
  match nameOf dom id with
  | (.mathml, name) => mathTextNames.contains name
  | _ => false

/-- Whether an element is a place in SVG where content belongs to HTML. -/
def isSvgHtml (dom : Dom) (id : Nat) : Bool :=
  match nameOf dom id with
  | (.svg, name) => svgHtmlNames.contains name
  | _ => false

/-- Whether an element is an annotation in MathML whose content is declared to be HTML. -/
def isHtmlAnnotation (dom : Dom) (id : Nat) : Bool :=
  nameOf dom id = (.mathml, "annotation-xml") &&
    (attributeOf dom id "encoding").any fun encoding ↦
      encoding.toLower = "text/html" || encoding.toLower = "application/xhtml+xml"

/-! ## The stack of open elements -/

/-- The innermost open element. -/
def current? : Build (Option Nat) := return (← get).stack.back?

/-- Whether the innermost open element has one of the given names. -/
def currentIs (names : List String) : Build Bool := do
  let b ← get
  return b.stack.back?.any (isOneOf b.dom names)

/-- Close the innermost open element. -/
def pop : Build Unit := modify fun b ↦ { b with stack := b.stack.pop }

/-- Open an element. -/
def push (id : Nat) : Build Unit := modify fun b ↦ { b with stack := b.stack.push id }

/-- Expect something else next. -/
def setMode (mode : Mode) : Build Unit := modify fun b ↦ { b with mode }

/-- From now on no frameset may replace the body. -/
def noFrameset : Build Unit := modify fun b ↦ { b with framesetOk := false }

/-- The open elements up to and without the innermost one that satisfies a condition. -/
def cutAt (stop : Nat → Bool) : List Nat → List Nat
  | [] => []
  | id :: outer => if stop id then outer else cutAt stop outer

/-- Close elements up to and including one with the given names. -/
def popUntil (names : List String) : Build Unit :=
  modify fun b ↦
    { b with stack := (cutAt (isOneOf b.dom names) b.stack.toList.reverse).reverse.toArray }

/-- Close elements up to and including the given one. -/
def popThrough (id : Nat) : Build Unit :=
  modify fun b ↦ { b with stack := (cutAt (· == id) b.stack.toList.reverse).reverse.toArray }

/-- Close elements until the innermost one has one of the given names. -/
def clearTo (names : List String) : Build Unit :=
  modify fun b ↦
    { b with
      stack := (b.stack.toList.reverse.dropWhile fun id ↦ !isOneOf b.dom names id).reverse.toArray }

/-- Close elements while the innermost one has one of the given names. -/
def popWhile (names : List String) : Build Unit :=
  modify fun b ↦
    { b with stack := (b.stack.toList.reverse.dropWhile (isOneOf b.dom names)).reverse.toArray }

/-- Elements whose end tag may be left out. -/
def impliedNames : List String :=
  ["dd", "dt", "li", "optgroup", "option", "p", "rb", "rp", "rt", "rtc"]

/-- Elements whose end tag may be left out, those of tables among them. -/
def thoroughNames : List String :=
  impliedNames ++ ["caption", "colgroup", "tbody", "td", "tfoot", "th", "thead", "tr"]

/-- Close elements whose end tag may be left out, apart from one name. -/
def closeImplied (except : String) : Build Unit := popWhile (impliedNames.filter (· != except))

/-- How far the search for an open element goes. -/
inductive Scope where
  | default
  | listItem
  | button
  | table
  | select
  deriving DecidableEq, Repr

/-- Whether a search ends at an element. -/
def Scope.endsAt (scope : Scope) (dom : Dom) (id : Nat) : Bool :=
  match scope, nameOf dom id with
  | .table, (.html, name) => ["html", "table", "template"].contains name
  | .table, _ => false
  | .select, (.html, name) => name != "optgroup" && name != "option"
  | .select, _ => true
  | _, (.html, name) =>
    ["applet", "caption", "html", "table", "td", "th", "marquee", "object",
        "template"].contains name ||
      (scope = .listItem && (name = "ol" || name = "ul")) || (scope = .button && name = "button")
  | _, (.mathml, name) => mathTextNames.contains name
  | _, (.svg, name) => svgHtmlNames.contains name

/-- Whether an element that satisfies a condition is found before the search ends. -/
def findsIn (scope : Scope) (dom : Dom) (found : Nat → Bool) : List Nat → Bool
  | [] => false
  | id :: outer =>
    if found id then true else if scope.endsAt dom id then false else findsIn scope dom found outer

/-- Whether one of the given names is open within a scope. -/
def inScope (scope : Scope) (names : List String) : Build Bool := do
  let b ← get
  return findsIn scope b.dom (isOneOf b.dom names) b.stack.toList.reverse

/-- Whether a template is open. -/
def templateOpen : Build Bool := do
  let b ← get
  return b.stack.any (isOneOf b.dom ["template"])

/-- Close an open paragraph. -/
def closeParagraph : Build Unit := do
  closeImplied "p"
  popUntil ["p"]

/-- Close a paragraph that is open within the scope of a button. -/
def closeParagraphInScope : Build Unit := do
  if ← inScope .button ["p"] then closeParagraph

/-! ## Insertion -/

/-- Where a node goes. -/
inductive Place where
  | endOf (parent : Nat)
  | before (sibling : Nat)

/-- The end of a node, or of its contents when it is a template. -/
def endOf (dom : Dom) (id : Nat) : Place := .endOf ((dom.contents? id).getD id)

/-- The names of the elements that content may not stand in directly. -/
def tableNames : List String := ["table", "tbody", "tfoot", "thead", "tr"]

/-- Where a node goes that belongs to `target`. In front of a table there is room for what may not
stand in it. -/
def placeFor (b : Builder) (target : Nat) : Place :=
  if b.fostering && isOneOf b.dom tableNames target then
    let inner := b.stack.toList.reverse
    match inner.find? (isOneOf b.dom ["table", "template"]) with
    | none => endOf b.dom ((b.stack[0]?).getD Dom.root)
    | some id =>
      if isOneOf b.dom ["template"] id then endOf b.dom id
      else if (b.dom.parent? id).isSome then .before id
      else
        match (inner.dropWhile (· != id)).drop 1 with
        | outer :: _ => endOf b.dom outer
        | [] => .endOf Dom.root
  else endOf b.dom target

/-- Put a node where it belongs. -/
def placeNode (id target : Nat) : Build Unit :=
  modify fun b ↦
    match placeFor b target with
    | .endOf parent => { b with dom := b.dom.append parent id }
    | .before sibling => { b with dom := b.dom.insertBefore sibling id }

/-- Put a text where it belongs. The document itself holds none. -/
def insertText (cs : List Char) : Build Unit :=
  modify fun b ↦
    let content := String.ofList cs
    match b.stack.back? with
    | none => b
    | some target =>
      match placeFor b target with
      | .endOf parent => { b with dom := b.dom.appendText parent content }
      | .before sibling => { b with dom := b.dom.insertTextBefore sibling content }

/-- Make a node that stands nowhere yet. -/
def add (datum : Datum) : Build Nat :=
  modifyGet fun b ↦
    let (dom, id) := b.dom.add datum
    (id, { b with dom })

/-- Add a comment to the end of a node. -/
def appendComment (parent : Nat) (content : String) : Build Unit := do
  let id ← add (.comment content)
  modify fun b ↦ { b with dom := b.dom.append parent id }

/-- Put a comment where it belongs. -/
def insertComment (content : String) : Build Unit := do
  let id ← add (.comment content)
  placeNode id ((← current?).getD Dom.root)

/-- Make an element that stands nowhere yet. -/
def create (space : Space) (tag : Tag) : Build Nat := do
  let id ← add (.element space tag.name tag.attrs)
  if space = .html && tag.name = "template" then
    let contents ← add .document
    modify fun b ↦
      { b with dom := b.dom.update id fun s ↦ { s with contents := some contents } }
  return id

/-- Make an element, put it where it belongs and open it. -/
def insertIn (space : Space) (tag : Tag) : Build Nat := do
  let id ← create space tag
  match ← current? with
  | some target => placeNode id target
  | none => modify fun b ↦ { b with dom := b.dom.append Dom.root id }
  push id
  return id

/-- Open an HTML element. -/
def insert (tag : Tag) : Build Unit := do
  let _ ← insertIn .html tag

/-- Put an HTML element that holds nothing. -/
def insertEmpty (tag : Tag) : Build Unit := do
  insert tag
  pop

/-- A tag that the document leaves out. -/
def bare (name : String) : Tag := ⟨name, [], false⟩

/-- Open an element whose content is text, up to its end tag. -/
def insertTextElement (tag : Tag) (lexing : Lexing) : Build Unit := do
  insert tag
  modify fun b ↦ { b with resume := b.mode, mode := .text, lexing }

/-! ## Formatting elements -/

/-- Whether two tags have the same name and attributes. -/
def sameTag (a b : Tag) : Bool :=
  a.name = b.name && a.attrs.length = b.attrs.length && a.attrs.all b.attrs.contains

/-- The entries after the last marker, youngest first. -/
def inForce (formatting : Array Formatting) : List (Nat × Tag) :=
  formatting.toList.reverse.takeWhile (fun | .marker => false | _ => true) |>.filterMap
    fun | .element id tag => some (id, tag) | .marker => none

/-- Drop an entry from the list of formatting elements. -/
def dropFormatting (id : Nat) : Build Unit :=
  modify fun b ↦
    { b with formatting := b.formatting.filter fun | .element other _ => other != id | _ => true }

/-- Drop an element from the stack. -/
def dropOpen (id : Nat) : Build Unit :=
  modify fun b ↦ { b with stack := b.stack.filter (· != id) }

/-- Put an element on the list of formatting elements. Of more than three alike the oldest goes. -/
def pushFormatting (id : Nat) (tag : Tag) : Build Unit := do
  let alike := (inForce (← get).formatting).filter fun (_, other) ↦ sameTag tag other
  match alike.drop 2 with
  | (oldest, _) :: _ => dropFormatting ((alike.getLast?.map (·.1)).getD oldest)
  | [] => pure ()
  modify fun b ↦ { b with formatting := b.formatting.push (.element id tag) }

/-- Open a formatting element. -/
def insertFormatting (tag : Tag) : Build Unit := do
  let id ← insertIn .html tag
  pushFormatting id tag

/-- Put a marker on the list of formatting elements. -/
def pushMarker : Build Unit := modify fun b ↦ { b with formatting := b.formatting.push .marker }

/-- Drop formatting elements up to and including the last marker. -/
def clearFormatting : Build Unit :=
  modify fun b ↦
    let rest := b.formatting.toList.reverse.dropWhile fun | .marker => false | _ => true
    { b with formatting := (rest.drop 1).reverse.toArray }

/-- Open again the formatting elements in force that are not open. -/
def reconstruct : Build Unit := do
  let b ← get
  let isClosed : Formatting → Bool
    | .marker => false
    | .element id _ => !b.stack.contains id
  let closed := b.formatting.toList.reverse.takeWhile isClosed |>.length
  let kept := b.formatting.size - closed
  for entry in b.formatting.toList.drop kept, i in List.range closed do
    match entry with
    | .marker => pure ()
    | .element _ tag =>
      let id ← insertIn .html tag
      modify fun b ↦ { b with formatting := b.formatting.modify (kept + i) fun _ ↦ .element id tag }

/-! ## End tags and adoption -/

/-- Close the innermost open element of a name, unless a special element is in between. -/
def closeOther (name : String) : Build Unit := do
  let b ← get
  let rec walk : List Nat → Option Nat
    | [] => none
    | id :: outer =>
      if isOneOf b.dom [name] id then some id
      else if isSpecial b.dom id then none
      else walk outer
  match walk b.stack.toList.reverse with
  | none => pure ()
  | some id =>
    closeImplied name
    popThrough id

/-- The position of an entry in the list of formatting elements. -/
def formattingIndex? (formatting : Array Formatting) (id : Nat) : Option Nat :=
  formatting.findIdx? fun | .element other _ => other == id | .marker => false

/-- Insert an entry into a list at a position. -/
def insertAt {α : Type} (xs : Array α) (i : Nat) (x : α) : Array α :=
  (xs.toList.take i ++ x :: xs.toList.drop i).toArray

/-- What adoption moves: the last node moved, and the entry that marks where the adopted element
goes in the list of formatting elements, right after it when a node was renewed. -/
structure Adoption where
  /-- The last node moved. -/
  last : Nat
  /-- The renewed element after which the adopted one goes. -/
  after : Option Nat

/-- Renew the elements between the formatting element and the block, innermost first. -/
def adoptBetween (block : Nat) : Nat → List Nat → Adoption → Build Adoption
  | _, [], state => return state
  | count, id :: outer, state => do
    let b ← get
    let index := formattingIndex? b.formatting id
    if count > 3 then dropFormatting id
    match (if count > 3 then none else index) with
    | none =>
      dropOpen id
      adoptBetween block (count + 1) outer state
    | some i =>
      match b.formatting[i]? with
      | some (.element _ tag) =>
        let renewed ← create .html tag
        modify fun b ↦
          { b with
            formatting := b.formatting.modify i fun _ ↦ .element renewed tag
            stack := b.stack.map fun other ↦ if other == id then renewed else other
            dom := b.dom.append renewed state.last }
        let after := if state.last = block then some renewed else state.after
        adoptBetween block (count + 1) outer ⟨renewed, after⟩
      | _ => return state

/-- One round of adoption for a name. The answer tells whether there is another round. -/
def adoptOnce (name : String) : Build Bool := do
  let b ← get
  match (inForce b.formatting).find? fun (_, tag) ↦ tag.name = name with
  | none =>
    closeOther name
    return false
  | some (id, tag) =>
    if !b.stack.contains id then
      dropFormatting id
      return false
    else if !findsIn .default b.dom (· == id) b.stack.toList.reverse then return false
    else
      let inner := (b.stack.toList.dropWhile (· != id)).drop 1
      match inner.find? (isSpecial b.dom) with
      | none =>
        popThrough id
        dropFormatting id
        return false
      | some block =>
        let ancestor := (b.stack.toList.takeWhile (· != id)).getLast?.getD Dom.root
        let bookmark := (formattingIndex? b.formatting id).getD 0
        let between := (inner.takeWhile (· != block)).reverse
        let state ← adoptBetween block 1 between ⟨block, none⟩
        modify fun b ↦ { b with dom := b.dom.detach state.last }
        placeNode state.last ancestor
        let renewed ← create .html tag
        modify fun b ↦
          { b with dom := (b.dom.moveChildren block renewed).append block renewed }
        modify fun b ↦
          let entry := Formatting.element renewed tag
          match state.after.bind (formattingIndex? b.formatting) with
          | some i =>
            let placed := insertAt b.formatting (i + 1) entry
            { b with
              formatting := placed.filter fun | .element other _ => other != id | .marker => true }
          | none =>
            let i := (formattingIndex? b.formatting id).getD bookmark
            { b with formatting := b.formatting.modify i fun _ ↦ entry }
        dropOpen id
        modify fun b ↦
          let outer := b.stack.toList.takeWhile (· != block)
          let rest := (b.stack.toList.dropWhile (· != block)).drop 1
          { b with stack := (outer ++ block :: renewed :: rest).toArray }
        return true

/-- Rounds of adoption, at most the given number. -/
def adoptRounds (name : String) : Nat → Build Unit
  | 0 => pure ()
  | n + 1 => do
    if ← adoptOnce name then adoptRounds name n

/-- Close a formatting element that other elements may be open in, so that its content keeps the
format. -/
def adopt (name : String) : Build Unit := do
  let b ← get
  match b.stack.back? with
  | some id =>
    if isOneOf b.dom [name] id && (formattingIndex? b.formatting id).isNone then pop
    else adoptRounds name 8
  | none => adoptRounds name 8

/-! ## Expectation from the stack -/

/-- Whether a select element stands in a table. -/
def selectInTable (dom : Dom) : List Nat → Bool
  | [] => false
  | id :: outer =>
    if isOneOf dom ["template"] id then false
    else if isOneOf dom ["table"] id then true
    else selectInTable dom outer

/-- What is expected inside the given open elements, innermost first. -/
def modeIn (b : Builder) : List Nat → Mode
  | [] => .inBody
  | id :: outer =>
    match nameOf b.dom id with
    | (.html, "select") => if selectInTable b.dom outer then .inSelectInTable else .inSelect
    | (.html, "td") | (.html, "th") => if outer.isEmpty then .inBody else .inCell
    | (.html, "tr") => .inRow
    | (.html, "tbody") | (.html, "thead") | (.html, "tfoot") => .inTableBody
    | (.html, "caption") => .inCaption
    | (.html, "colgroup") => .inColumnGroup
    | (.html, "table") => .inTable
    | (.html, "template") => b.templateModes.back?.getD .inBody
    | (.html, "head") => if outer.isEmpty then .inBody else .inHead
    | (.html, "body") => .inBody
    | (.html, "frameset") => .inFrameset
    | (.html, "html") => if b.head.isNone then .beforeHead else .afterHead
    | _ => modeIn b outer

/-- Expect what fits the stack of open elements. -/
def resetMode : Build Unit := modify fun b ↦ { b with mode := modeIn b b.stack.toList.reverse }

end Build

end FormulaEdit.Html
