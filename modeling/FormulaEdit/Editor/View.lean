import FormulaEdit.Editor.Basic

/-!
# Views

What a user sees of an editor: for each node the place it stands in and what can be done with it.
The outline leaves out what is inside of folded nodes.
-/

namespace FormulaEdit

/-- What can be done with a node. -/
inductive Control where
  | operatorSelector (current : String) (choices : List String)
  | variantSelector (current : Nat) (variants : List String)
  | listControls (length : Nat) (element : String)
  | atomInput (atom : Atom) (value : String) (invalid : Option String)
  deriving DecidableEq, Repr

/-- What a user sees of a node. -/
structure NodeView where
  /-- Where the node is. -/
  path : NodePath
  /-- How many nodes are above it. -/
  depth : Nat
  /-- The name of the place it stands in. -/
  label : String
  /-- Whether it is unfolded. -/
  isOpen : Bool
  /-- What can be done with it. -/
  control : Control
  deriving DecidableEq, Repr

namespace Editor

/-- The name of the place of a child: the argument's name, the position in a list, or `variant`. -/
def placeLabel (g : Grammar) (parent : Kind) (index : Nat) : String :=
  match parent with
  | .operator name =>
    match (g.find? name).bind (·.args[index]?) with
    | some arg => arg.name
    | none => toString index
  | .list _ => s!"[{index}]"
  | .union _ => "variant"
  | .atom _ => toString index

/-- The name of the place at a path. The root's is `formula`. -/
def labelAt (e : Editor) (path : NodePath) : String :=
  match path.getLast? with
  | none => "formula"
  | some index =>
    match e.tree.get? path.dropLast with
    | some parent => placeLabel e.grammar parent.value.kind index
    | none => toString index

/-- The names of the operators that may stand in place of another. -/
def choicesFor (g : Grammar) (name : String) (atRoot : Bool) : List String :=
  (g.alternatives name atRoot).map (·.name)

/-- What can be done with a node. -/
def controlOf (g : Grammar) (atRoot : Bool) (t : FormulaTree) : Control :=
  match t.value.kind with
  | .operator name => .operatorSelector name (choicesFor g name atRoot)
  | .union variants =>
    let live := t.children.head?.bind fun part ↦ g.liveVariant? variants part.value.kind
    .variantSelector (live.getD 0) (variants.map Kind.text)
  | .list element => .listControls t.children.length element.text
  | .atom atom => .atomInput atom t.value.input t.value.flags.invalid

/-- What a user sees of the node at a path. -/
def view? (e : Editor) (path : NodePath) : Option NodeView :=
  match e.tree.get? path with
  | none => none
  | some t =>
    some
      { path
        depth := path.length
        label := e.labelAt path
        isOpen := t.value.flags.isOpen
        control := controlOf e.grammar path.isEmpty t }

/-- What a user sees of all nodes that are not inside of folded ones, parents before children. -/
def outline (e : Editor) : List NodeView :=
  (e.tree.walk (fun node ↦ node.flags.isOpen) []).filterMap fun (path, _) ↦ e.view? path

/-- The operators that the node at a path may be switched to. -/
def operatorChoices (e : Editor) (path : NodePath) : List String :=
  match e.tree.get? path with
  | none => []
  | some t =>
    match t.value.kind with
    | .operator name => choicesFor e.grammar name path.isEmpty
    | _ => []

end Editor

end FormulaEdit
