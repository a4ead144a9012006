import FormulaEdit.Formula.Node
import FormulaEdit.Proofs.Cursor

/-!
# Projections of cursors

A function on values is applied to a whole cursor by applying it to the focus and to each piece of
the crumbs: the parent and the siblings on both sides. That this is the projection of a place in a
tree is a matter of naturality. It makes no difference whether the pieces are projected and then put
together or the other way round, and whether one moves or edits before or after.

Only `Cursor.delete` looks at a value. It asks whether the parent is variadic, so it is natural in
the functions that keep the answer. Taking the kind of a node is one of them.
-/

namespace FormulaEdit

variable {α β : Type}

/-! ## Trees and crumbs -/

namespace Tree

theorem value_map (f : α → β) (t : Tree α) : (t.map f).value = f t.value := by
  obtain ⟨value, children⟩ := t
  rw [map_node, value_node, value_node]

theorem children_map (f : α → β) (t : Tree α) : (t.map f).children = t.children.map (map f) := by
  obtain ⟨value, children⟩ := t
  rw [map_node, children_node, children_node]

theorem map_leaf (f : α → β) (value : α) : (leaf value).map f = leaf (f value) := by
  rw [leaf, map_node, List.map_nil, leaf]

end Tree

theorem Crumb.map_close (f : α → β) (crumb : Crumb α) (t : Tree α) :
    (crumb.close t).map f = (crumb.map f).close (t.map f) := by
  rw [close, Tree.map_node, List.map_append, List.map_cons]
  rfl

/-! ## The place of a cursor -/

namespace Cursor

theorem value_map (f : α → β) (c : Cursor α) : (c.map f).value = f c.value :=
  c.focus.value_map f

theorem children_focus_map (f : α → β) (c : Cursor α) :
    (c.map f).focus.children = c.focus.children.map (Tree.map f) :=
  c.focus.children_map f

theorem path_map (f : α → β) (c : Cursor α) : (c.map f).path = c.path := by
  have hbefore : (fun crumb : Crumb α ↦ (crumb.map f).before.length) =
      fun crumb ↦ crumb.before.length := by
    funext crumb
    exact List.length_map _
  rw [path, path, map, List.map_map]
  exact congrArg (fun length ↦ (c.crumbs.map length).reverse) hbefore

theorem map_plug (f : α → β) (t : Tree α) (crumbs : List (Crumb α)) :
    (plug t crumbs).map f = plug (t.map f) (crumbs.map (·.map f)) := by
  induction crumbs generalizing t with
  | nil => rfl
  | cons crumb crumbs ih => rw [plug, ih, Crumb.map_close, List.map_cons, plug]

/-- **The projection is one of the whole tree.** -/
theorem tree_map (f : α → β) (c : Cursor α) : (c.map f).tree = c.tree.map f :=
  (map_plug f c.focus c.crumbs).symm

/-! ## Moves -/

theorem child?_map (f : α → β) (c : Cursor α) (index : Nat) :
    (c.map f).child? index = (c.child? index).map (map f) := by
  rw [child?, child?, children_focus_map, ← List.map_drop, ← List.map_take, value_map]
  cases c.focus.children.drop index with
  | nil => rfl
  | cons t after => rfl

/-- A projection commutes with a descent, also where the path ends early. -/
theorem descend_map (f : α → β) (c : Cursor α) (path : NodePath) :
    (c.map f).descend path = ((c.descend path).map (map f)).mapError (map f) := by
  induction path generalizing c with
  | nil => rfl
  | cons index path ih =>
    rw [descend, descend, child?_map]
    cases c.child? index with
    | none => rfl
    | some child => exact ih child

theorem up?_map (f : α → β) (c : Cursor α) : (c.map f).up? = c.up?.map (map f) := by
  obtain ⟨t, crumbs⟩ := c
  cases crumbs with
  | nil => rfl
  | cons crumb crumbs =>
    have hparent := crumb.map_close f t
    simp only [up?, map, List.map_cons, Option.map_some, hparent]

theorem root_map (f : α → β) (c : Cursor α) : (c.map f).root = c.root.map f := by
  rw [root, root, tree_map]
  rfl

/-! ## Edits -/

theorem insert_map (f : α → β) (c : Cursor α) (t : Tree α) :
    (c.map f).insert (t.map f) = (c.insert t).map f := by
  obtain ⟨focus, crumbs⟩ := c
  cases crumbs with
  | nil => rfl
  | cons crumb crumbs =>
    simp only [insert, map, List.map_cons, Crumb.map, List.map_append, List.map_nil]

theorem pushChild_map (f : α → β) (c : Cursor α) (t : Tree α) :
    (c.map f).pushChild (t.map f) = (c.pushChild t).map f := by
  rw [pushChild, pushChild, value_map, children_focus_map]
  rfl

theorem delete_map [Variadic α] [Variadic β] {f : α → β}
    (hf : ∀ a, Variadic.isVariadic (f a) = Variadic.isVariadic a) (c : Cursor α) :
    (c.map f).delete = c.delete.map f := by
  obtain ⟨focus, crumbs⟩ := c
  cases crumbs with
  | nil => rfl
  | cons crumb crumbs =>
    obtain ⟨parent, before, after⟩ := crumb
    rw [map, List.map_cons, Crumb.map, delete, delete]
    dsimp only
    rw [hf]
    by_cases hvariadic : Variadic.isVariadic parent = true
    · rw [if_pos hvariadic, if_pos hvariadic, List.getLast?_map]
      -- the focus goes to the next sibling, to the previous one or to the parent
      cases after with
      | cons next after => rfl
      | nil =>
        cases before.getLast? with
        | some previous => simp [map, Crumb.map]
        | none => simp [map, Tree.map_leaf]
    · rw [if_neg hvariadic, if_neg hvariadic]
      rfl

/-- **Projection is natural.** The projection of a cursor has the same path, and its focus and its
whole tree are the projections of the focus and of the whole tree. Moves commute with it and fail on
both sides alike. So do edits, with the subtree that is put in projected too. A deletion does if the
function keeps whether a value is variadic, as taking the kind of a node does. -/
theorem map_natural (f : α → β) (c : Cursor α) :
    (c.map f).path = c.path ∧ (c.map f).focus = c.focus.map f ∧ (c.map f).tree = c.tree.map f ∧
      (∀ index, (c.map f).child? index = (c.child? index).map (map f)) ∧
      (∀ path, (c.map f).descend path = ((c.descend path).map (map f)).mapError (map f)) ∧
      (c.map f).up? = c.up?.map (map f) ∧ (c.map f).root = c.root.map f ∧
      (∀ t, (c.map f).insert (t.map f) = (c.insert t).map f) ∧
      (∀ t, (c.map f).pushChild (t.map f) = (c.pushChild t).map f) ∧
      (∀ t, (c.map f).replace (t.map f) = (c.replace t).map f) ∧
      (∀ [Variadic α] [Variadic β], (∀ a, Variadic.isVariadic (f a) = Variadic.isVariadic a) →
        (c.map f).delete = c.delete.map f) ∧
      ∀ node : Node, Variadic.isVariadic node.kind = Variadic.isVariadic node :=
  ⟨c.path_map f, rfl, c.tree_map f, c.child?_map f, c.descend_map f, c.up?_map f, c.root_map f,
    c.insert_map f, c.pushChild_map f, fun _ ↦ rfl, fun hf ↦ c.delete_map hf, fun _ ↦ rfl⟩

/-- The last element of a list is deleted below an operator, among nodes and among kinds. -/
theorem map_natural_elements :
    let element := fun text ↦ (.leaf (.ofAtom .bool text) : Tree Node)
    let c : Cursor Node := ⟨element "no", [⟨.plain (.list (.atom .bool)), [element "true"], []⟩,
      ⟨.plain (.operator "all"), [], []⟩]⟩
    (∀ node : Node, Variadic.isVariadic node.kind = Variadic.isVariadic node) ∧
      (c.map Node.kind).path = [0, 1] ∧
      (c.map Node.kind).delete = c.delete.map Node.kind ∧
      (c.map Node.kind).delete = ⟨.leaf (.atom .bool),
        [⟨.list (.atom .bool), [], []⟩, ⟨.operator "all", [], []⟩]⟩ := by
  intro element c
  obtain ⟨hpath, _, _, _, _, _, _, _, _, _, hdelete, hkind⟩ := map_natural Node.kind c
  exact ⟨hkind, hpath, hdelete hkind, by decide⟩

end Cursor

end FormulaEdit
