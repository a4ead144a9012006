import FormulaEdit.Kind.Basic
import FormulaEdit.Tree.Cursor

/-!
# Nodes of a formula

A formula is a tree of nodes. A node has a kind and what the editor remembers of it: whether it is
unfolded and, if it is an atom, its text and what is wrong with it.
-/

namespace FormulaEdit

/-- What the editor remembers of a node besides its text. -/
structure Flags where
  /-- Whether the node is unfolded. -/
  isOpen : Bool
  /-- What is wrong with the text, if anything. -/
  invalid : Option String
  deriving DecidableEq, Repr

/-- The flags of a new node. -/
def Flags.default : Flags := ⟨true, none⟩

/-- A node of a formula. -/
structure Node where
  /-- What stands at the node. -/
  kind : Kind
  /-- The text of an atom. Other nodes have none. -/
  input : String
  /-- What else the editor remembers. -/
  flags : Flags
  deriving DecidableEq, Repr

/-- A formula or a part of one. -/
abbrev FormulaTree := Tree Node

namespace Node

/-- A new node without text. -/
def plain (kind : Kind) : Node := ⟨kind, "", .default⟩

/-- The text an atom keeps and what is wrong with it: a well-formed text is put in normal form, any
other is kept as it is. -/
def entry (atom : Atom) (raw : String) : String × Option String :=
  match atom.check raw with
  | .ok normal => (normal, none)
  | .error rejection => (raw, some rejection.message)

/-- Give a new text to an atom. Other nodes stay as they are. -/
def setInput (node : Node) (raw : String) : Node :=
  match node.kind with
  | .atom atom =>
    let (input, invalid) := entry atom raw
    { node with input, flags := { node.flags with invalid } }
  | _ => node

/-- A new atom with a text. -/
def ofAtom (atom : Atom) (raw : String) : Node :=
  (plain (.atom atom)).setInput raw

/-- Fold or unfold a node. -/
def toggle (node : Node) : Node :=
  { node with flags := { node.flags with isOpen := !node.flags.isOpen } }

/-- What the node is called. -/
def label (node : Node) : String := node.kind.label

end Node

instance : Variadic Kind := ⟨Kind.isVariadic⟩

instance : Variadic Node := ⟨fun node ↦ node.kind.isVariadic⟩

end FormulaEdit
