import FormulaEdit.Tree.Cursor

/-!
# Cursors and the trees they stand in

A cursor is a tree taken apart at one place. Going down takes it apart further and never changes the
tree; and the path of a cursor leads from the root of its tree back to the cursor. So an edit at a
path of a tree is an edit of the focus with the surroundings fixed, and any number of edits may be
chained without looking at paths again.
-/

namespace FormulaEdit

@[simp] theorem Tree.value_node {α : Type} (value : α) (children : List (Tree α)) :
    (Tree.node value children).value = value := rfl

@[simp] theorem Tree.children_node {α : Type} (value : α) (children : List (Tree α)) :
    (Tree.node value children).children = children := rfl

theorem Tree.node_value_children {α : Type} (t : Tree α) : .node t.value t.children = t := by
  cases t
  rfl

theorem Tree.map_node {α β : Type} (f : α → β) (value : α) (children : List (Tree α)) :
    (Tree.node value children).map f = .node (f value) (children.map (map f)) := by
  have hmaps : map.maps f children = children.map (map f) := by
    induction children with
    | nil => rfl
    | cons child children ih => rw [map.maps, ih, List.map_cons]
  rw [map, hmaps]

namespace Cursor

variable {α : Type}

/-! ## Going down -/

theorem child?_tree {c c' : Cursor α} {index : Nat} (h : c.child? index = some c') :
    c'.tree = c.tree := by
  unfold child? at h
  split at h
  · cases h
  · rename_i part after hdrop
    cases h
    have hclose : Tree.node c.value (c.focus.children.take index ++ part :: after) = c.focus := by
      rw [← hdrop, List.take_append_drop]
      exact c.focus.node_value_children
    rw [tree, plug, Crumb.close, hclose, tree]

theorem descend_tree {c c' : Cursor α} {path : NodePath} (h : c.descend path = .ok c') :
    c'.tree = c.tree := by
  induction path generalizing c with
  | nil =>
    cases h
    rfl
  | cons index path ih =>
    rw [descend] at h
    split at h
    · rename_i child hchild
      rw [ih h, child?_tree hchild]
    · cases h

/-! ## The way back -/

theorem child?_close (t : Tree α) (crumb : Crumb α) (crumbs : List (Crumb α)) :
    child? ⟨crumb.close t, crumbs⟩ crumb.before.length = some ⟨t, crumb :: crumbs⟩ := by
  simp [child?, Crumb.close, Tree.children, value, Tree.value]

theorem descend_append {c c' : Cursor α} {path : NodePath} (h : c.descend path = .ok c')
    (rest : NodePath) : c.descend (path ++ rest) = c'.descend rest := by
  induction path generalizing c with
  | nil =>
    cases h
    rfl
  | cons index path ih =>
    rw [descend] at h
    rw [List.cons_append, descend]
    split at h
    · rename_i child hchild
      exact ih h
    · cases h

@[simp] theorem tree_cons (t : Tree α) (crumb : Crumb α) (crumbs : List (Crumb α)) :
    tree ⟨t, crumb :: crumbs⟩ = tree ⟨crumb.close t, crumbs⟩ := rfl

theorem path_cons (t : Tree α) (crumb : Crumb α) (crumbs : List (Crumb α)) :
    path ⟨t, crumb :: crumbs⟩ = path ⟨crumb.close t, crumbs⟩ ++ [crumb.before.length] := by
  simp [path]

/-- **The path of a cursor leads to it.** -/
theorem descend_path (c : Cursor α) : (ofTree c.tree).descend c.path = .ok c := by
  obtain ⟨t, crumbs⟩ := c
  induction crumbs generalizing t with
  | nil => rfl
  | cons crumb crumbs ih =>
    rw [path_cons, tree_cons, descend_append (ih (crumb.close t)), descend, child?_close]
    rfl

end Cursor

end FormulaEdit
