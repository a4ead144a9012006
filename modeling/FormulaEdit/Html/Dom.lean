import FormulaEdit.Html.Node

/-!
# Documents under construction

While a document is read its nodes move about, so they are kept in a table and refer to each other
by number. A text that is put next to another text joins it. The contents of a `template` element
are a document of their own, which the finished document leaves out.
-/

namespace FormulaEdit.Html

/-- The vocabulary an element belongs to. -/
inductive Space where
  | html
  | svg
  | mathml
  deriving DecidableEq, Repr, Inhabited

/-- What a node under construction is. -/
inductive Datum where
  | document
  | doctype
  | element (space : Space) (name : String) (attrs : List (String × String))
  | text (content : String)
  | comment (content : String)
  deriving Repr, Inhabited

/-- A node under construction. -/
structure Slot where
  /-- What the node is. -/
  datum : Datum
  /-- The node it stands in. -/
  parent : Option Nat
  /-- The nodes in it. -/
  children : Array Nat
  /-- The contents of a template. -/
  contents : Option Nat
  deriving Repr, Inhabited

/-- A table of nodes. -/
structure Dom where
  /-- The nodes by number. -/
  slots : Array Slot
  deriving Repr, Inhabited

namespace Dom

/-- The table that holds only a document. -/
def start : Dom := ⟨#[⟨.document, none, #[], none⟩]⟩

/-- The number of the document. -/
def root : Nat := 0

/-- Add a node that stands nowhere yet. -/
def add (dom : Dom) (datum : Datum) : Dom × Nat :=
  (⟨dom.slots.push ⟨datum, none, #[], none⟩⟩, dom.slots.size)

/-- Change a node. -/
def update (dom : Dom) (id : Nat) (f : Slot → Slot) : Dom :=
  ⟨dom.slots.modify id f⟩

/-- What a node is. -/
def datum (dom : Dom) (id : Nat) : Datum :=
  match dom.slots[id]? with
  | some slot => slot.datum
  | none => .document

/-- The node that a node stands in. -/
def parent? (dom : Dom) (id : Nat) : Option Nat :=
  dom.slots[id]?.bind (·.parent)

/-- The nodes in a node. -/
def children (dom : Dom) (id : Nat) : Array Nat :=
  match dom.slots[id]? with
  | some slot => slot.children
  | none => #[]

/-- The contents of a template. -/
def contents? (dom : Dom) (id : Nat) : Option Nat :=
  dom.slots[id]?.bind (·.contents)

/-- Take a node from where it stands. -/
def detach (dom : Dom) (id : Nat) : Dom :=
  match dom.parent? id with
  | none => dom
  | some parent =>
    (dom.update parent fun s ↦ { s with children := s.children.filter (· != id) }).update id
      fun s ↦ { s with parent := none }

/-- Put a node at the end of another. -/
def append (dom : Dom) (parent id : Nat) : Dom :=
  ((dom.detach id).update parent fun s ↦ { s with children := s.children.push id }).update id
    fun s ↦ { s with parent := some parent }

/-- Put a node right before another. -/
def insertBefore (dom : Dom) (sibling id : Nat) : Dom :=
  let dom := dom.detach id
  match dom.parent? sibling with
  | none => dom
  | some parent =>
    let place (s : Slot) : Slot :=
      let before := s.children.toList.takeWhile (· != sibling)
      let after := s.children.toList.dropWhile (· != sibling)
      { s with children := (before ++ id :: after).toArray }
    (dom.update parent place).update id fun s ↦ { s with parent := some parent }

/-- Join a text to a node that is a text. -/
def extendText? (dom : Dom) (id : Nat) (content : String) : Option Dom :=
  match dom.datum id with
  | .text before => some (dom.update id fun s ↦ { s with datum := .text (before ++ content) })
  | _ => none

/-- Put a text at the end of a node. -/
def appendText (dom : Dom) (parent : Nat) (content : String) : Dom :=
  let joined := (dom.children parent).back?.bind fun last ↦ dom.extendText? last content
  joined.getD (let (dom, id) := dom.add (.text content); dom.append parent id)

/-- Put a text right before a node. -/
def insertTextBefore (dom : Dom) (sibling : Nat) (content : String) : Dom :=
  let previous := do
    let parent ← dom.parent? sibling
    ((dom.children parent).toList.takeWhile (· != sibling)).getLast?
  let joined := previous.bind fun last ↦ dom.extendText? last content
  joined.getD (let (dom, id) := dom.add (.text content); dom.insertBefore sibling id)

/-- Move the nodes in one node to the end of another. -/
def moveChildren (dom : Dom) (source target : Nat) : Dom :=
  (dom.children source).foldl (fun dom id ↦ dom.append target id) dom

/-- The finished node, to a depth that no document of this many nodes exceeds. -/
def finish (dom : Dom) : Nat → Nat → Node
  | 0, _ => .other
  | depth + 1, id =>
    let inner := (dom.children id).toList.map (finish dom depth)
    match dom.datum id with
    | .document => .document inner
    | .doctype => .other
    | .element _ name attrs => .element name attrs inner
    | .text content => .text content
    | .comment content => .comment content

end Dom

end FormulaEdit.Html
