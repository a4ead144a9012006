import FormulaEdit.Tree.Basic

/-!
# Cursors

A cursor is a place in a tree. It holds the subtree in focus and, for each step up to the root, a
crumb with the parent's value and the siblings on both sides. A move or an edit touches only the
focus and the nearest crumb, and the whole tree is put together again on demand.
-/

namespace FormulaEdit

/-- Values whose nodes may lose children one by one. -/
class Variadic (α : Type) where
  /-- Whether the children of a node with this value may be removed. -/
  isVariadic : α → Bool

/-- What surrounds a subtree one level up. -/
structure Crumb (α : Type) where
  /-- The value of the parent. -/
  parent : α
  /-- The siblings before the subtree, in order. -/
  before : List (Tree α)
  /-- The siblings after the subtree, in order. -/
  after : List (Tree α)
  deriving DecidableEq, Repr

/-- A place in a tree. -/
structure Cursor (α : Type) where
  /-- The subtree in focus. -/
  focus : Tree α
  /-- What surrounds it, the nearest level first. -/
  crumbs : List (Crumb α)
  deriving DecidableEq, Repr

variable {α β : Type}

namespace Crumb

/-- The parent with a subtree put back. -/
def close (crumb : Crumb α) (t : Tree α) : Tree α :=
  .node crumb.parent (crumb.before ++ t :: crumb.after)

/-- The crumb with a function applied to every value. -/
def map (f : α → β) (crumb : Crumb α) : Crumb β :=
  ⟨f crumb.parent, crumb.before.map (·.map f), crumb.after.map (·.map f)⟩

end Crumb

namespace Cursor

/-- The cursor at the root of a tree. -/
def ofTree (t : Tree α) : Cursor α := ⟨t, []⟩

/-- The value in focus. -/
def value (c : Cursor α) : α := c.focus.value

/-- The value of the parent. The root has none. -/
def parent? (c : Cursor α) : Option α :=
  c.crumbs.head?.map (·.parent)

/-- The position of the focus among its siblings. -/
def index? (c : Cursor α) : Option Nat :=
  c.crumbs.head?.map (·.before.length)

/-- Whether the focus is the root. -/
def isRoot (c : Cursor α) : Bool := c.crumbs.isEmpty

/-- The path of the focus. -/
def path (c : Cursor α) : NodePath :=
  (c.crumbs.map (·.before.length)).reverse

/-- Put a subtree back into what surrounds it. -/
def plug (t : Tree α) : List (Crumb α) → Tree α
  | [] => t
  | crumb :: crumbs => plug (crumb.close t) crumbs

/-- The whole tree. -/
def tree (c : Cursor α) : Tree α := plug c.focus c.crumbs

/-! ## Moves -/

/-- Move to a child. -/
def child? (c : Cursor α) (index : Nat) : Option (Cursor α) :=
  match c.focus.children.drop index with
  | [] => none
  | focus :: after => some ⟨focus, ⟨c.value, c.focus.children.take index, after⟩ :: c.crumbs⟩

/-- Follow a path down from the focus. If it leads nowhere the error is the last place it
reaches. -/
def descend (c : Cursor α) : NodePath → Except (Cursor α) (Cursor α)
  | [] => .ok c
  | index :: path =>
    match c.child? index with
    | some child => child.descend path
    | none => .error c

/-- Move to the parent. -/
def up? (c : Cursor α) : Option (Cursor α) :=
  match c.crumbs with
  | [] => none
  | crumb :: crumbs => some ⟨crumb.close c.focus, crumbs⟩

/-- Move to the root. -/
def root (c : Cursor α) : Cursor α := ofTree c.tree

/-- Move to the first child with a property. -/
def open? (c : Cursor α) (p : Tree α → Bool) : Option (Cursor α) :=
  match c.focus.children.findIdx? p with
  | some index => c.child? index
  | none => none

/-! ## Edits -/

/-- Put another subtree in place of the focus. -/
def replace (c : Cursor α) (t : Tree α) : Cursor α := { c with focus := t }

/-- Change the value in focus. -/
def modify (c : Cursor α) (f : α → α) : Cursor α := { c with focus := c.focus.modify f }

/-- Put a subtree right after the focus and move to it. At the root nothing happens. -/
def insert (c : Cursor α) (t : Tree α) : Cursor α :=
  match c.crumbs with
  | [] => c
  | crumb :: crumbs => ⟨t, { crumb with before := crumb.before ++ [c.focus] } :: crumbs⟩

/-- Put a subtree after the last child and move to it. -/
def pushChild (c : Cursor α) (t : Tree α) : Cursor α :=
  ⟨t, ⟨c.value, c.focus.children, []⟩ :: c.crumbs⟩

/-- Remove the focus from a variadic parent and move to the next sibling, else to the previous one,
else to the parent. Anywhere else nothing happens. -/
def delete [Variadic α] (c : Cursor α) : Cursor α :=
  match c.crumbs with
  | [] => c
  | crumb :: crumbs =>
    if Variadic.isVariadic crumb.parent then
      match crumb.after, crumb.before.getLast? with
      | next :: after, _ => ⟨next, { crumb with after } :: crumbs⟩
      | [], some previous => ⟨previous, { crumb with before := crumb.before.dropLast } :: crumbs⟩
      | [], none => ⟨.leaf crumb.parent, crumbs⟩
    else c

/-- The cursor with a function applied to every value. -/
def map (f : α → β) (c : Cursor α) : Cursor β :=
  ⟨c.focus.map f, c.crumbs.map (·.map f)⟩

end Cursor

end FormulaEdit
