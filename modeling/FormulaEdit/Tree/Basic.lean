import FormulaEdit.Tree.Path

/-!
# Trees

A tree has a value at its root and any number of subtrees in order. Nodes do not know their parents;
a node is addressed by its path from the root.
-/

namespace FormulaEdit

/-- A tree with values at its nodes. -/
inductive Tree (α : Type) where
  | node (value : α) (children : List (Tree α))
  deriving Repr, Inhabited

namespace Tree

variable {α β : Type}

mutual

/-- Equality of trees is decidable. -/
def decEq [DecidableEq α] : (s t : Tree α) → Decidable (s = t)
  | .node a ss, .node b ts =>
    have := decEqs ss ts
    decidable_of_iff (a = b ∧ ss = ts) (by simp)

/-- Equality of lists of trees is decidable. -/
def decEqs [DecidableEq α] : (ss ts : List (Tree α)) → Decidable (ss = ts)
  | [], [] => isTrue rfl
  | s :: ss, t :: ts =>
    have := decEq s t
    have := decEqs ss ts
    decidable_of_iff (s = t ∧ ss = ts) (by simp)
  | [], _ :: _ | _ :: _, [] => isFalse (by simp)

end

instance [DecidableEq α] : DecidableEq (Tree α) := decEq

/-- The tree of one node. -/
def leaf (value : α) : Tree α := .node value []

/-- The value at the root. -/
def value : Tree α → α
  | .node value _ => value

/-- The subtrees below the root. -/
def children : Tree α → List (Tree α)
  | .node _ children => children

/-- The tree with its root value changed. -/
def modify (f : α → α) : Tree α → Tree α
  | .node value children => .node (f value) children

/-- The subtree at a path. -/
def get? (t : Tree α) : NodePath → Option (Tree α)
  | [] => some t
  | index :: path =>
    match t.children[index]? with
    | some child => child.get? path
    | none => none

/-- The number of nodes. -/
def size : Tree α → Nat
  | .node _ children => 1 + sizes children
where
  /-- The number of nodes of several trees. -/
  sizes : List (Tree α) → Nat
    | [] => 0
    | t :: ts => t.size + sizes ts

/-- The number of levels. -/
def depth : Tree α → Nat
  | .node _ children => 1 + deepest children
where
  /-- The number of levels of the deepest of several trees. -/
  deepest : List (Tree α) → Nat
    | [] => 0
    | t :: ts => max t.depth (deepest ts)

/-- The tree with a function applied to every value. -/
def map (f : α → β) : Tree α → Tree β
  | .node value children => .node (f value) (maps children)
where
  /-- Several trees with a function applied to every value. -/
  maps : List (Tree α) → List (Tree β)
    | [] => []
    | t :: ts => t.map f :: maps ts

mutual

/-- The nodes below `path` with their paths, parents before children. The children of a node are
left out unless its value says to enter it. -/
def walk (enter : α → Bool) (path : NodePath) : Tree α → List (NodePath × Tree α)
  | .node value children =>
    (path, .node value children) ::
      (if enter value then walkAll enter path 0 children else [])

/-- The nodes of the subtrees from position `index` on. -/
def walkAll (enter : α → Bool) (path : NodePath) (index : Nat) :
    List (Tree α) → List (NodePath × Tree α)
  | [] => []
  | t :: ts => t.walk enter (path ++ [index]) ++ walkAll enter path (index + 1) ts

end

end Tree

end FormulaEdit
