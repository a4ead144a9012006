import FormulaEdit.Html.Rules

/-!
# Reading a document

`Html.parse` reads any text as a document. Nothing is an error: missing tags are supplied and stray
ones are dropped, by the rules that all readers of HTML share.
-/

namespace FormulaEdit.Html

/-- Whether the innermost open element belongs to another vocabulary. -/
def Builder.isForeign (b : Builder) : Bool :=
  match b.stack.back? with
  | some id => (Build.nameOf b.dom id).1 != .html
  | none => false

/-- Whether a token ends a script. -/
def Builder.endsScript (b : Builder) (token : Token) : Bool :=
  b.mode = .text && token = .closing "script"

/-- Handle the tokens of a text to its end. Each round takes at least one character. After a script
the text begins anew, so that it may have a byte-order mark there. -/
def buildWithin : Nat → List Char → Builder → Builder
  | 0, _, b => b
  | fuel + 1, cs, b =>
    match b.lexing, dropWord? "<![cdata[".toList cs, cs with
    | .characterData, _, ']' :: ']' :: '>' :: rest =>
      buildWithin fuel rest { b with lexing := .data }
    | .data, some rest, _ =>
      if b.isForeign && cs.take 9 = "<![CDATA[".toList then
        buildWithin fuel rest { b with lexing := .characterData }
      else step fuel cs b
    | _, _, _ => step fuel cs b
where
  /-- Handle one token and go on. -/
  step (fuel : Nat) (cs : List Char) (b : Builder) : Builder :=
    match nextToken b.lexing cs with
    | (.done, _) => ((Build.handle .done).run b).2
    | (token, rest) =>
      let rest := if b.endsScript token then dropMark rest else rest
      let b := match token with
        | .closing _ => { b with lexing := .data }
        | _ => b
      buildWithin fuel rest ((Build.handle token).run b).2

/-- Read a text as a document. -/
def parse (source : String) : Node :=
  let cs := normalizeLines (dropMark source.toList)
  let dom := (buildWithin (cs.length + 1) cs .start).dom
  dom.finish (dom.slots.size + 1) Dom.root

end FormulaEdit.Html
