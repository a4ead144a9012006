import FormulaEdit.Html.Builder

/-!
# The rules for tokens

What the builder does with a token depends on what it expects. Each rule either finishes the token
or changes the expectation and asks for the token to be tried again. Some rules fall back on those
for another expectation, above all on the ones for the body.
-/

namespace FormulaEdit.Html

/-- What becomes of a token after a rule. -/
inductive Flow where
  | finished
  | again
  deriving DecidableEq, Repr

namespace Build

/-- Expect something else and try the token again. -/
def retryIn (mode : Mode) : Build Flow := do
  setMode mode
  return .again

/-! ## The head -/

/-- Close the innermost open template. -/
def closeTemplate : Build Unit := do
  if ← templateOpen then
    popWhile thoroughNames
    popUntil ["template"]
    clearFormatting
    modify fun b ↦ { b with templateModes := b.templateModes.pop }
    resetMode

/-- Open a template. -/
def openTemplate (tag : Tag) : Build Unit := do
  insert tag
  pushMarker
  noFrameset
  modify fun b ↦
    { b with mode := .inTemplate, templateModes := b.templateModes.push .inTemplate }

/-- The start tags that belong to the head wherever they stand. -/
def headNames : List String :=
  ["base", "basefont", "bgsound", "link", "meta", "noframes", "script", "style", "template",
    "title"]

/-- A start tag that belongs to the head wherever it stands. -/
def headTag (tag : Tag) : Build Unit := do
  match tag.name with
  | "title" => insertTextElement tag (.rcdata "title")
  | "noframes" | "style" | "noscript" => insertTextElement tag (.rawtext tag.name)
  | "script" => insertTextElement tag .script
  | "template" => openTemplate tag
  | _ => insertEmpty tag

/-- Add the attributes of a tag that an element does not have. -/
def mergeAttributes (id : Nat) (tag : Tag) : Build Unit :=
  modify fun b ↦
    { b with
      dom := b.dom.update id fun s ↦
        match s.datum with
        | .element space name attrs =>
          { s with
            datum := .element space name
              (tag.attrs.foldl (fun acc (k, v) ↦ addAttribute acc k v) attrs) }
        | _ => s }

/-- A start tag of the document element where one is open. -/
def htmlTag (tag : Tag) : Build Unit := do
  let b ← get
  if !(← templateOpen) then
    match b.stack[0]? with
    | some id => mergeAttributes id tag
    | none => pure ()

/-! ## The body -/

/-- The second open element, if it is the body. -/
def body? : Build (Option Nat) := do
  let b ← get
  return (b.stack[1]?).filter (isOneOf b.dom ["body"])

/-- Start tags of blocks. -/
def blockNames : List String :=
  ["address", "article", "aside", "blockquote", "center", "details", "dialog", "dir", "div", "dl",
    "fieldset", "figcaption", "figure", "footer", "header", "hgroup", "main", "menu", "nav", "ol",
    "p", "search", "section", "summary", "ul"]

/-- End tags of blocks. -/
def blockEndNames : List String :=
  (blockNames.filter (· != "p")) ++ ["button", "listing", "pre"]

/-- Headings. -/
def headingNames : List String := ["h1", "h2", "h3", "h4", "h5", "h6"]

/-- Formatting elements other than links. -/
def formattingNames : List String :=
  ["b", "big", "code", "em", "font", "i", "s", "small", "strike", "strong", "tt", "u"]

/-- Start tags that belong to a table or a head and mean nothing in the body. -/
def strayNames : List String :=
  ["caption", "col", "colgroup", "frame", "head", "tbody", "td", "tfoot", "th", "thead", "tr"]

/-- Close open items of a list, up to the first element that an item may not reach out of. -/
def closeItems (names : List String) : Build Unit := do
  let b ← get
  let rec walk : List Nat → Option Nat
    | [] => none
    | id :: outer =>
      if isOneOf b.dom names id then some id
      else if isSpecial b.dom id && !isOneOf b.dom ["address", "div", "p"] id then none
      else walk outer
  match walk b.stack.toList.reverse with
  | none => pure ()
  | some id =>
    closeImplied (nameOf b.dom id).2
    popThrough id

/-- A start tag of a frameset in the body. -/
def framesetTag (tag : Tag) : Build Unit := do
  match ← body? with
  | none => pure ()
  | some body =>
    if (← get).framesetOk then
      modify fun b ↦ { b with dom := b.dom.detach body, stack := b.stack.take 1 }
      insert tag
      setMode .inFrameset

/-- A start tag of a link. -/
def linkTag (tag : Tag) : Build Unit := do
  match (inForce (← get).formatting).find? fun (_, t) ↦ t.name = "a" with
  | some (id, _) =>
    adopt "a"
    dropFormatting id
    dropOpen id
  | none => pure ()
  reconstruct
  insertFormatting tag

/-- A start tag of an element of another vocabulary. -/
def foreignTag (space : Space) (tag : Tag) : Build Unit := do
  let _ ← insertIn space tag
  if tag.selfClosing then pop

/-- Whether an input element is not shown. -/
def isHiddenInput (tag : Tag) : Bool :=
  (tag.attrs.lookup "type").any (·.toLower = "hidden")

/-- Expect the options of a select element. -/
def selectMode : Build Unit := do
  let inTable :=
    [Mode.inTable, .inCaption, .inTableBody, .inRow, .inCell].contains (← get).mode
  setMode (if inTable then .inSelectInTable else .inSelect)

/-- A start tag in the body. -/
def bodyStart (tag : Tag) : Build Unit := do
  let name := tag.name
  if name = "html" then htmlTag tag
  else if headNames.contains name then headTag tag
  else if name = "body" then
    match ← body? with
    | some body =>
      if !(← templateOpen) then
        noFrameset
        mergeAttributes body tag
    | none => pure ()
  else if name = "frameset" then framesetTag tag
  else if blockNames.contains name then
    closeParagraphInScope
    insert tag
  else if headingNames.contains name then
    closeParagraphInScope
    if ← currentIs headingNames then pop
    insert tag
  else if name = "pre" || name = "listing" then
    closeParagraphInScope
    insert tag
    noFrameset
    modify fun b ↦ { b with ignoreLineFeed := true }
  else if name = "form" then
    if (← get).form.isNone || (← templateOpen) then
      closeParagraphInScope
      let id ← insertIn .html tag
      if !(← templateOpen) then modify fun b ↦ { b with form := some id }
  else if name = "li" then
    noFrameset
    closeItems ["li"]
    closeParagraphInScope
    insert tag
  else if name = "dd" || name = "dt" then
    noFrameset
    closeItems ["dd", "dt"]
    closeParagraphInScope
    insert tag
  else if name = "plaintext" then
    closeParagraphInScope
    insert tag
    modify fun b ↦ { b with lexing := .plaintext }
  else if name = "button" then
    if ← inScope .default ["button"] then
      closeImplied ""
      popUntil ["button"]
    reconstruct
    insert tag
    noFrameset
  else if name = "a" then linkTag tag
  else if formattingNames.contains name then
    reconstruct
    insertFormatting tag
  else if name = "nobr" then
    reconstruct
    if ← inScope .default ["nobr"] then
      adopt "nobr"
      reconstruct
    insertFormatting tag
  else if ["applet", "marquee", "object"].contains name then
    reconstruct
    insert tag
    pushMarker
    noFrameset
  else if name = "table" then
    if !(← get).legacy then closeParagraphInScope
    insert tag
    noFrameset
    setMode .inTable
  else if ["area", "br", "embed", "img", "image", "keygen", "wbr"].contains name then
    reconstruct
    insertEmpty (if name = "image" then { tag with name := "img" } else tag)
    noFrameset
  else if name = "input" then
    reconstruct
    insertEmpty tag
    if !isHiddenInput tag then noFrameset
  else if ["param", "source", "track"].contains name then insertEmpty tag
  else if name = "hr" then
    closeParagraphInScope
    insertEmpty tag
    noFrameset
  else if name = "textarea" then
    noFrameset
    insertTextElement tag (.rcdata "textarea")
    modify fun b ↦ { b with ignoreLineFeed := true }
  else if name = "xmp" then
    closeParagraphInScope
    reconstruct
    noFrameset
    insertTextElement tag (.rawtext "xmp")
  else if name = "iframe" then
    noFrameset
    insertTextElement tag (.rawtext "iframe")
  else if name = "noembed" || name = "noscript" then insertTextElement tag (.rawtext name)
  else if name = "select" then
    reconstruct
    insert tag
    noFrameset
    selectMode
  else if name = "optgroup" || name = "option" then
    if ← currentIs ["option"] then pop
    reconstruct
    insert tag
  else if name = "rb" || name = "rtc" then
    if ← inScope .default ["ruby"] then closeImplied ""
    insert tag
  else if name = "rp" || name = "rt" then
    if ← inScope .default ["ruby"] then closeImplied "rtc"
    insert tag
  else if name = "math" then
    foreignTag .mathml tag
  else if name = "svg" then
    foreignTag .svg tag
  else if strayNames.contains name then pure ()
  else
    reconstruct
    insert tag

/-- An end tag of a form. -/
def closeForm : Build Unit := do
  if ← templateOpen then
    if ← inScope .default ["form"] then
      closeImplied ""
      popUntil ["form"]
  else
    let b ← get
    modify fun b ↦ { b with form := none }
    match b.form with
    | none => pure ()
    | some id =>
      if findsIn .default b.dom (· == id) b.stack.toList.reverse then
        closeImplied ""
        dropOpen id

/-- An end tag of an element that is closed with all that is open in it. -/
def closeInScope (scope : Scope) (names : List String) (except : String) : Build Unit := do
  if ← inScope scope names then
    closeImplied except
    popUntil names

/-- An end tag in the body. -/
def bodyEnd (name : String) : Build Flow := do
  if name = "template" then closeTemplate
  else if name = "body" then
    if ← inScope .default ["body"] then setMode .afterBody
  else if name = "html" then
    if ← inScope .default ["body"] then return ← retryIn .afterBody
  else if blockEndNames.contains name then closeInScope .default [name] ""
  else if name = "form" then closeForm
  else if name = "p" then
    if !(← inScope .button ["p"]) then insert (bare "p")
    closeParagraph
  else if name = "li" then closeInScope .listItem ["li"] "li"
  else if name = "dd" || name = "dt" then closeInScope .default [name] name
  else if headingNames.contains name then closeInScope .default headingNames ""
  else if name = "a" || name = "nobr" || formattingNames.contains name then adopt name
  else if ["applet", "marquee", "object"].contains name then
    if ← inScope .default [name] then
      closeImplied ""
      popUntil [name]
      clearFormatting
  else if name = "br" then bodyStart (bare "br")
  else closeOther name
  return .finished

/-- The end of the text in a template. -/
def templateDone : Build Flow := do
  if ← templateOpen then
    popUntil ["template"]
    clearFormatting
    modify fun b ↦ { b with templateModes := b.templateModes.pop }
    resetMode
    return .again
  else return .finished

/-- The rules for the body. -/
def inBody (token : Token) : Build Flow := do
  match token with
  | .nul | .doctype _ | .fault _ => return .finished
  | .blank cs =>
    reconstruct
    insertText cs
    return .finished
  | .chars cs =>
    reconstruct
    insertText cs
    noFrameset
    return .finished
  | .comment content =>
    insertComment content
    return .finished
  | .opening tag =>
    bodyStart tag
    return .finished
  | .closing name => bodyEnd name
  | .done => if (← get).templateModes.isEmpty then return .finished else templateDone

/-! ## Before the body -/

/-- The rules for the start of a document. -/
def initial (token : Token) : Build Flow := do
  match token with
  | .blank _ => return .finished
  | .comment content =>
    appendComment Dom.root content
    return .finished
  | .doctype legacy =>
    modify fun b ↦
      let (dom, id) := b.dom.add .doctype
      { b with dom := dom.append Dom.root id, legacy, mode := .beforeHtml }
    return .finished
  | _ =>
    modify fun b ↦ { b with legacy := true }
    retryIn .beforeHtml

/-- End tags that may stand where the document has not begun. -/
def earlyEndNames : List String := ["head", "body", "html", "br"]

/-- The rules before the document element. -/
def beforeHtml (token : Token) : Build Flow := do
  match token with
  | .doctype _ | .blank _ => return .finished
  | .comment content =>
    appendComment Dom.root content
    return .finished
  | .opening tag =>
    if tag.name = "html" then
      insert tag
      setMode .beforeHead
      return .finished
    else
      insert (bare "html")
      retryIn .beforeHead
  | .closing name =>
    if earlyEndNames.contains name then
      insert (bare "html")
      retryIn .beforeHead
    else return .finished
  | _ =>
    insert (bare "html")
    retryIn .beforeHead

/-- Open the head. -/
def openHead (tag : Tag) : Build Unit := do
  let id ← insertIn .html tag
  modify fun b ↦ { b with head := some id, mode := .inHead }

/-- The rules before the head. -/
def beforeHead (token : Token) : Build Flow := do
  match token with
  | .doctype _ | .blank _ => return .finished
  | .comment content =>
    insertComment content
    return .finished
  | .opening tag =>
    if tag.name = "html" then inBody token
    else if tag.name = "head" then
      openHead tag
      return .finished
    else
      openHead (bare "head")
      return .again
  | .closing name =>
    if earlyEndNames.contains name then
      openHead (bare "head")
      return .again
    else return .finished
  | _ =>
    openHead (bare "head")
    return .again

/-- The rules for the head. -/
def inHead (token : Token) : Build Flow := do
  let leave : Build Flow := do
    pop
    retryIn .afterHead
  match token with
  | .blank cs =>
    insertText cs
    return .finished
  | .comment content =>
    insertComment content
    return .finished
  | .doctype _ => return .finished
  | .opening tag =>
    if tag.name = "html" then inBody token
    else if headNames.contains tag.name || tag.name = "noscript" then
      headTag tag
      return .finished
    else if tag.name = "head" then return .finished
    else leave
  | .closing name =>
    if name = "head" then
      pop
      setMode .afterHead
      return .finished
    else if name = "template" then
      closeTemplate
      return .finished
    else if earlyEndNames.contains name then leave
    else return .finished
  | _ => leave

/-- The rules after the head. -/
def afterHead (token : Token) : Build Flow := do
  let leave : Build Flow := do
    insert (bare "body")
    retryIn .inBody
  match token with
  | .blank cs =>
    insertText cs
    return .finished
  | .comment content =>
    insertComment content
    return .finished
  | .doctype _ => return .finished
  | .opening tag =>
    if tag.name = "html" then inBody token
    else if tag.name = "body" then
      insert tag
      noFrameset
      setMode .inBody
      return .finished
    else if tag.name = "frameset" then
      insert tag
      setMode .inFrameset
      return .finished
    else if headNames.contains tag.name then
      match (← get).head with
      | some head =>
        push head
        headTag tag
        dropOpen head
      | none => headTag tag
      return .finished
    else if tag.name = "head" then return .finished
    else leave
  | .closing name =>
    if name = "template" then
      closeTemplate
      return .finished
    else if earlyEndNames.contains name && name != "head" then leave
    else return .finished
  | _ => leave

/-- The rules for an element whose content is text. -/
def inText (token : Token) : Build Flow := do
  match token with
  | .blank cs | .chars cs =>
    insertText cs
    return .finished
  | .done =>
    pop
    retryIn (← get).resume
  | .closing _ =>
    pop
    setMode (← get).resume
    return .finished
  | _ => return .finished

/-! ## Tables -/

/-- Put what may not stand in a table in front of it. -/
def foster (token : Token) : Build Flow := do
  modify fun b ↦ { b with fostering := true }
  let flow ← inBody token
  modify fun b ↦ { b with fostering := false }
  return flow

/-- Close the innermost table that is in scope. -/
def closeTable : Build Unit := do
  popUntil ["table"]
  resetMode

/-- Start tags of the parts of a table. -/
def tablePartNames : List String :=
  ["caption", "col", "colgroup", "tbody", "td", "tfoot", "th", "thead", "tr"]

/-- A start tag of a part of a table. -/
def tablePart (tag : Tag) : Build Flow := do
  clearTo ["table", "template", "html"]
  match tag.name with
  | "caption" =>
    pushMarker
    insert tag
    setMode .inCaption
    return .finished
  | "colgroup" =>
    insert tag
    setMode .inColumnGroup
    return .finished
  | "col" =>
    insert (bare "colgroup")
    retryIn .inColumnGroup
  | "tbody" | "tfoot" | "thead" =>
    insert tag
    setMode .inTableBody
    return .finished
  | _ =>
    insert (bare "tbody")
    retryIn .inTableBody

/-- The rules for a table. -/
def inTable (token : Token) : Build Flow := do
  match token with
  | .blank _ | .chars _ | .nul =>
    if ← currentIs ("template" :: tableNames) then
      modify fun b ↦ { b with pending := [], resume := b.mode }
      retryIn .inTableText
    else foster token
  | .comment content =>
    insertComment content
    return .finished
  | .doctype _ | .fault _ => return .finished
  | .opening tag =>
    let name := tag.name
    if tablePartNames.contains name then tablePart tag
    else if name = "table" then
      if ← inScope .table ["table"] then
        closeTable
        return .again
      else return .finished
    else if ["style", "script", "template"].contains name then
      headTag tag
      return .finished
    else if name = "input" && isHiddenInput tag then
      insertEmpty tag
      return .finished
    else if name = "form" then
      if (← get).form.isNone && !(← templateOpen) then
        let id ← insertIn .html tag
        modify fun b ↦ { b with form := some id }
        pop
      return .finished
    else foster token
  | .closing name =>
    if name = "table" then
      if ← inScope .table ["table"] then closeTable
      return .finished
    else if ["body", "html"].contains name || tablePartNames.contains name then return .finished
    else if name = "template" then
      closeTemplate
      return .finished
    else foster token
  | .done => inBody token

/-- The rules for text in a table. -/
def inTableText (token : Token) : Build Flow := do
  match token with
  | .nul | .doctype _ | .fault _ => return .finished
  | .blank cs | .chars cs =>
    modify fun b ↦ { b with pending := cs :: b.pending }
    return .finished
  | _ =>
    let b ← get
    let pending := b.pending.reverse
    let allBlank := pending.all (·.all isSpace)
    for cs in pending do
      if allBlank then insertText cs
      else
        let _ ← foster (charsToken cs)
    modify fun b ↦ { b with pending := [] }
    retryIn b.resume

/-- Close a caption. -/
def closeCaption : Build Unit := do
  closeImplied ""
  popUntil ["caption"]
  clearFormatting
  setMode .inTable

/-- The rules for a caption. -/
def inCaption (token : Token) : Build Flow := do
  let leave : Build Flow := do
    if ← inScope .table ["caption"] then
      closeCaption
      return .again
    else return .finished
  match token with
  | .closing "caption" =>
    if ← inScope .table ["caption"] then closeCaption
    return .finished
  | .closing "table" => leave
  | .closing name =>
    if ["body", "html"].contains name || tablePartNames.contains name then return .finished
    else inBody token
  | .opening tag => if tablePartNames.contains tag.name then leave else inBody token
  | _ => inBody token

/-- The rules for a group of columns. -/
def inColumnGroup (token : Token) : Build Flow := do
  let leave : Build Flow := do
    if ← currentIs ["colgroup"] then
      pop
      retryIn .inTable
    else return .finished
  match token with
  | .blank cs =>
    insertText cs
    return .finished
  | .comment content =>
    insertComment content
    return .finished
  | .doctype _ => return .finished
  | .opening tag =>
    if tag.name = "html" then inBody token
    else if tag.name = "col" then
      insertEmpty tag
      return .finished
    else if tag.name = "template" then
      headTag tag
      return .finished
    else leave
  | .closing name =>
    if name = "colgroup" then
      if ← currentIs ["colgroup"] then
        pop
        setMode .inTable
      return .finished
    else if name = "col" then return .finished
    else if name = "template" then
      closeTemplate
      return .finished
    else leave
  | .done => inBody token
  | _ => leave

/-- The groups of rows of a table. -/
def rowGroupNames : List String := ["tbody", "tfoot", "thead"]

/-- Close a group of rows. -/
def closeRowGroup : Build Unit := do
  clearTo (rowGroupNames ++ ["template", "html"])
  pop
  setMode .inTable

/-- The rules for a group of rows. -/
def inTableBody (token : Token) : Build Flow := do
  let leave : Build Flow := do
    if ← inScope .table rowGroupNames then
      closeRowGroup
      return .again
    else return .finished
  match token with
  | .opening tag =>
    if tag.name = "tr" then
      clearTo (rowGroupNames ++ ["template", "html"])
      insert tag
      setMode .inRow
      return .finished
    else if tag.name = "th" || tag.name = "td" then
      clearTo (rowGroupNames ++ ["template", "html"])
      insert (bare "tr")
      retryIn .inRow
    else if tablePartNames.contains tag.name then leave
    else inTable token
  | .closing name =>
    if rowGroupNames.contains name then
      if ← inScope .table [name] then closeRowGroup
      return .finished
    else if name = "table" then leave
    else if ["body", "caption", "col", "colgroup", "html", "td", "th", "tr"].contains name then
      return .finished
    else inTable token
  | _ => inTable token

/-- Close a row. -/
def closeRow : Build Unit := do
  clearTo ["tr", "template", "html"]
  pop
  setMode .inTableBody

/-- The rules for a row. -/
def inRow (token : Token) : Build Flow := do
  let leave : Build Flow := do
    if ← inScope .table ["tr"] then
      closeRow
      return .again
    else return .finished
  match token with
  | .opening tag =>
    if tag.name = "th" || tag.name = "td" then
      clearTo ["tr", "template", "html"]
      insert tag
      setMode .inCell
      pushMarker
      return .finished
    else if tablePartNames.contains tag.name then leave
    else inTable token
  | .closing name =>
    if name = "tr" then
      if ← inScope .table ["tr"] then closeRow
      return .finished
    else if name = "table" then leave
    else if rowGroupNames.contains name then
      if ← inScope .table [name] then leave else return .finished
    else if ["body", "caption", "col", "colgroup", "html", "td", "th"].contains name then
      return .finished
    else inTable token
  | _ => inTable token

/-- Close a cell. -/
def closeCell : Build Unit := do
  closeImplied ""
  popUntil ["td", "th"]
  clearFormatting
  setMode .inRow

/-- The rules for a cell. -/
def inCell (token : Token) : Build Flow := do
  match token with
  | .opening tag =>
    if tablePartNames.contains tag.name then
      if ← inScope .table ["td", "th"] then
        closeCell
        return .again
      else return .finished
    else inBody token
  | .closing name =>
    if name = "td" || name = "th" then
      if ← inScope .table [name] then
        closeImplied ""
        popUntil [name]
        clearFormatting
        setMode .inRow
      return .finished
    else if ["body", "caption", "col", "colgroup", "html"].contains name then return .finished
    else if tableNames.contains name then
      if ← inScope .table [name] then
        closeCell
        return .again
      else return .finished
    else inBody token
  | _ => inBody token

/-! ## Select elements -/

/-- Close an open select element. -/
def closeSelect : Build Unit := do
  popUntil ["select"]
  resetMode

/-- The rules for a select element. -/
def inSelect (token : Token) : Build Flow := do
  match token with
  | .nul | .doctype _ | .fault _ => return .finished
  | .blank cs | .chars cs =>
    insertText cs
    return .finished
  | .comment content =>
    insertComment content
    return .finished
  | .opening tag =>
    let name := tag.name
    if name = "html" then inBody token
    else if name = "option" then
      if ← currentIs ["option"] then pop
      insert tag
      return .finished
    else if name = "optgroup" then
      if ← currentIs ["option"] then pop
      if ← currentIs ["optgroup"] then pop
      insert tag
      return .finished
    else if name = "hr" then
      if ← currentIs ["option"] then pop
      if ← currentIs ["optgroup"] then pop
      insertEmpty tag
      return .finished
    else if name = "select" then
      if ← inScope .select ["select"] then closeSelect
      return .finished
    else if ["input", "keygen", "textarea"].contains name then
      if ← inScope .select ["select"] then
        closeSelect
        return .again
      else return .finished
    else if name = "script" || name = "template" then
      headTag tag
      return .finished
    else return .finished
  | .closing name =>
    if name = "optgroup" then
      let b ← get
      let inGroup := (b.stack.pop.back?).any (isOneOf b.dom ["optgroup"])
      if (← currentIs ["option"]) && inGroup then pop
      if ← currentIs ["optgroup"] then pop
    else if name = "option" then
      if ← currentIs ["option"] then pop
    else if name = "select" then
      if ← inScope .select ["select"] then closeSelect
    else if name = "template" then closeTemplate
    return .finished
  | .done => inBody token

/-- The rules for a select element in a table. -/
def inSelectInTable (token : Token) : Build Flow := do
  let names := ["caption", "table", "tbody", "tfoot", "thead", "tr", "td", "th"]
  match token with
  | .opening tag =>
    if names.contains tag.name then
      closeSelect
      return .again
    else inSelect token
  | .closing name =>
    if names.contains name then
      if ← inScope .table [name] then
        closeSelect
        return .again
      else return .finished
    else inSelect token
  | _ => inSelect token

/-! ## Templates, framesets and the end -/

/-- Expect the parts of a table in a template. -/
def templateRetry (mode : Mode) : Build Flow := do
  modify fun b ↦ { b with templateModes := b.templateModes.pop.push mode }
  retryIn mode

/-- The rules for the contents of a template. -/
def inTemplate (token : Token) : Build Flow := do
  match token with
  | .opening tag =>
    let name := tag.name
    if headNames.contains name then
      headTag tag
      return .finished
    else if ["caption", "colgroup", "tbody", "tfoot", "thead"].contains name then
      templateRetry .inTable
    else if name = "col" then templateRetry .inColumnGroup
    else if name = "tr" then templateRetry .inTableBody
    else if name = "td" || name = "th" then templateRetry .inRow
    else templateRetry .inBody
  | .closing name =>
    if name = "template" then closeTemplate
    return .finished
  | .done => templateDone
  | _ => inBody token

/-- The rules after the body. -/
def afterBody (token : Token) : Build Flow := do
  match token with
  | .blank _ => inBody token
  | .comment content =>
    appendComment (((← get).stack[0]?).getD Dom.root) content
    return .finished
  | .doctype _ | .done => return .finished
  | .opening tag => if tag.name = "html" then inBody token else retryIn .inBody
  | .closing name =>
    if name = "html" then
      setMode .afterAfterBody
      return .finished
    else retryIn .inBody
  | _ => retryIn .inBody

/-- The rules for a frameset. -/
def inFrameset (token : Token) : Build Flow := do
  match token with
  | .blank cs => insertText cs
  | .comment content => insertComment content
  | .opening tag =>
    match tag.name with
    | "html" => htmlTag tag
    | "frameset" => insert tag
    | "frame" => insertEmpty tag
    | "noframes" => headTag tag
    | _ => pure ()
  | .closing "frameset" =>
    if 1 < (← get).stack.size then
      pop
      if !(← currentIs ["frameset"]) then setMode .afterFrameset
  | _ => pure ()
  return .finished

/-- The rules after a frameset. -/
def afterFrameset (token : Token) : Build Flow := do
  match token with
  | .blank cs => insertText cs
  | .comment content => insertComment content
  | .opening tag =>
    match tag.name with
    | "html" => htmlTag tag
    | "noframes" => headTag tag
    | _ => pure ()
  | .closing "html" => setMode .afterAfterFrameset
  | _ => pure ()
  return .finished

/-- The rules after the document element. -/
def afterAfterBody (token : Token) : Build Flow := do
  match token with
  | .comment content =>
    appendComment Dom.root content
    return .finished
  | .doctype _ | .done => return .finished
  | .blank _ => inBody token
  | .opening tag => if tag.name = "html" then inBody token else retryIn .inBody
  | _ => retryIn .inBody

/-- The rules after the document element of a frameset. -/
def afterAfterFrameset (token : Token) : Build Flow := do
  match token with
  | .comment content =>
    appendComment Dom.root content
    return .finished
  | .blank _ => inBody token
  | .opening tag =>
    if tag.name = "html" then htmlTag tag
    else if tag.name = "noframes" then headTag tag
    return .finished
  | _ => return .finished

/-- The rules for an expectation. -/
def rules : Mode → Token → Build Flow
  | .initial => initial
  | .beforeHtml => beforeHtml
  | .beforeHead => beforeHead
  | .inHead => inHead
  | .afterHead => afterHead
  | .inBody => inBody
  | .text => inText
  | .inTable => inTable
  | .inTableText => inTableText
  | .inCaption => inCaption
  | .inColumnGroup => inColumnGroup
  | .inTableBody => inTableBody
  | .inRow => inRow
  | .inCell => inCell
  | .inSelect => inSelect
  | .inSelectInTable => inSelectInTable
  | .inTemplate => inTemplate
  | .afterBody => afterBody
  | .inFrameset => inFrameset
  | .afterFrameset => afterFrameset
  | .afterAfterBody => afterAfterBody
  | .afterAfterFrameset => afterAfterFrameset

/-! ## Other vocabularies -/

/-- Start tags that never belong to another vocabulary. -/
def breakoutNames : List String :=
  ["b", "big", "blockquote", "body", "br", "center", "code", "dd", "div", "dl", "dt", "em", "embed",
    "h1", "h2", "h3", "h4", "h5", "h6", "head", "hr", "i", "img", "li", "listing", "menu", "meta",
    "nobr", "ol", "p", "pre", "ruby", "s", "small", "span", "strong", "strike", "sub", "sup",
    "table", "tt", "u", "ul", "var"]

/-- Close elements of other vocabularies down to a place for HTML. An annotation is none. -/
def breakOut : Build Unit :=
  modify fun b ↦
    let isOutside (id : Nat) : Bool :=
      !((nameOf b.dom id).1 = .html || isMathText b.dom id || isSvgHtml b.dom id)
    { b with stack := (b.stack.toList.reverse.dropWhile isOutside).reverse.toArray }

/-- What an end tag closes in another vocabulary: the elements down to one of its name, or nothing
once an HTML element comes first. -/
def foreignTarget (dom : Dom) (name : String) : Bool → List Nat → Option (Option Nat)
  | _, [] | _, [_] => some none
  | first, id :: outer =>
    let (space, other) := nameOf dom id
    if !first && space = .html then none
    else if other.toLower = name then some (some id)
    else foreignTarget dom name false outer

/-- The rules inside an element of another vocabulary. -/
def inForeign (token : Token) : Build Flow := do
  match token with
  | .nul => insertText [replacement]
  | .blank cs => insertText cs
  | .chars cs =>
    insertText cs
    noFrameset
  | .comment content => insertComment content
  | .doctype _ | .fault _ | .done => pure ()
  | .opening tag =>
    let isBreakout := breakoutNames.contains tag.name ||
      (tag.name = "font" && tag.attrs.any fun (k, _) ↦ ["color", "face", "size"].contains k)
    if isBreakout then
      breakOut
      return ← rules (← get).mode token
    else
      let b ← get
      let space := (b.stack.back?.map fun id ↦ (nameOf b.dom id).1).getD .html
      foreignTag space tag
  | .closing name =>
    if name = "br" || name = "p" then
      breakOut
      return ← rules (← get).mode token
    else
      let b ← get
      match foreignTarget b.dom name true b.stack.toList.reverse with
      | none => return ← rules b.mode token
      | some none => pure ()
      | some (some id) => popThrough id
  return .finished

/-- Whether a token belongs to another vocabulary than HTML. -/
def isForeign (b : Builder) (token : Token) : Bool :=
  match b.stack.back? with
  | none => false
  | some id =>
    let isChars := match token with
      | .blank _ | .chars _ | .nul => true
      | _ => false
    let tagName := match token with
      | .opening tag => some tag.name
      | _ => none
    let (space, name) := nameOf b.dom id
    if space = .html || token = .done then false
    else if isMathText b.dom id &&
        (isChars || tagName.any fun n ↦ n != "mglyph" && n != "malignmark") then false
    else if space = .mathml && name = "annotation-xml" && tagName = some "svg" then false
    else if (isSvgHtml b.dom id || isHtmlAnnotation b.dom id) && (isChars || tagName.isSome) then
      false
    else true

/-- Handle a token by the rules, as often as they ask for it. -/
def handleWithin : Nat → Token → Build Unit
  | 0, _ => pure ()
  | fuel + 1, token => do
    let b ← get
    let flow ← if isForeign b token then inForeign token else rules b.mode token
    if flow = .again then handleWithin fuel token

/-- A token without the line feed that comes right after some start tags. -/
def dropLineFeed (token : Token) : Option Token :=
  match token with
  | .blank ('\n' :: rest) => if rest.isEmpty then none else some (.blank rest)
  | token => some token

/-- Handle a token. Of a mistake only the characters count that it stands for, and those are never
dropped. -/
def handle (token : Token) : Build Unit := do
  let b ← get
  set { b with ignoreLineFeed := false }
  let token :=
    match token with
    | .fault cs => if cs.isEmpty then none else some (charsToken cs)
    | token => if b.ignoreLineFeed then dropLineFeed token else some token
  match token with
  | some token => handleWithin (4 * b.stack.size + 32) token
  | none => pure ()

end Build

end FormulaEdit.Html
