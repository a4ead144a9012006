import FormulaEdit.Formula.Node
import FormulaEdit.Proofs.Cursor
import Mathlib.Data.Nat.Find

/-!
# Cursors as places given by a path

A cursor keeps a tree in pieces so that a move or an edit is cheap. What it stands for is plain: a
tree and the path of a node in it, which is a `Spot`. Here moves and edits are written once more for
spots, with no pieces at all, and a cursor is shown to go through the same states.

The bridge is `Tree.alterAt`, which changes the subtree at a path. An edit of the focus is a change
at the path of the cursor; an edit among the siblings is a change of the children at the path of the
parent. Both follow from `Cursor.alterAt_path`: to change a tree at the path of a cursor is to
change the focus and leave the crumbs alone.

Nothing is lost on the way. The path of a cursor leads back to it (`Cursor.descend_path`), so
cursors with the same tree and the same path are equal.
-/

namespace FormulaEdit

variable {α : Type}

/-! ## Changes at a path -/

namespace Tree

/-- The tree with the subtree at a path changed. A path that leads nowhere changes nothing. -/
def alterAt (f : Tree α → Tree α) : NodePath → Tree α → Tree α
  | [] => f
  | index :: path => fun t ↦ .node t.value (t.children.modify index (alterAt f path))

def alterChildren (f : List (Tree α) → List (Tree α)) (t : Tree α) : Tree α :=
  .node t.value (f t.children)

def value? (t : Tree α) (path : NodePath) : Option α := (t.get? path).map Tree.value

theorem get?_cons (t : Tree α) (index : Nat) (path : NodePath) :
    t.get? (index :: path) = t.children[index]?.bind (·.get? path) := by
  rw [get?]
  cases t.children[index]? <;> rfl

theorem get?_append (t : Tree α) (path rest : NodePath) :
    t.get? (path ++ rest) = (t.get? path).bind (·.get? rest) := by
  induction path generalizing t with
  | nil => rfl
  | cons index path ih =>
    rw [List.cons_append, get?_cons, get?_cons, Option.bind_assoc]
    congr 1
    funext child
    exact ih child

theorem exists_parent {t part : Tree α} {parent : NodePath} {index : Nat}
    (h : t.get? (parent ++ [index]) = some part) :
    ∃ above, t.get? parent = some above ∧ above.children[index]? = some part := by
  rw [get?_append] at h
  obtain ⟨above, habove, hchild⟩ := Option.bind_eq_some_iff.mp h
  rw [get?_cons] at hchild
  obtain ⟨child, hindex, hpart⟩ := Option.bind_eq_some_iff.mp hchild
  cases hpart
  exact ⟨above, habove, hindex⟩

theorem value?_cons (t : Tree α) (index : Nat) (path : NodePath) :
    t.value? (index :: path) = t.children[index]?.bind (·.value? path) := by
  rw [value?, get?_cons, Option.map_bind]
  rfl

theorem alterAt_append (f : Tree α → Tree α) (path rest : NodePath) :
    alterAt f (path ++ rest) = alterAt (alterAt f rest) path := by
  induction path with
  | nil => rfl
  | cons index path ih =>
    funext t
    rw [List.cons_append, alterAt, alterAt, ih]

/-- **A change at a path is felt at most there and below.** What is at a path that does not extend
it keeps its value, and what is at a path that extends it does so if the change keeps it. -/
theorem value?_alterAt {f : Tree α → Tree α} {path other : NodePath}
    (h : ∀ rest, other = path ++ rest → ∀ s, (f s).value? rest = s.value? rest) (t : Tree α) :
    (t.alterAt f path).value? other = t.value? other := by
  induction path generalizing other t with
  | nil => exact h other rfl t
  | cons index path ih =>
    cases other with
    | nil => rfl
    | cons index' other =>
      rw [alterAt, value?_cons, value?_cons, children_node, List.getElem?_modify]
      cases t.children[index']? with
      | none => rfl
      | some child =>
        by_cases hindex : index = index'
        · -- the change goes on below this child
          subst hindex
          have hbelow : ∀ rest, other = path ++ rest → ∀ s, (f s).value? rest = s.value? rest :=
            fun rest hrest ↦ h rest (by rw [hrest, List.cons_append])
          simpa using ih hbelow child
        · simp [hindex]

theorem value?_modify {f : α → α} {path : NodePath} (h : path ≠ []) (t : Tree α) :
    (t.modify f).value? path = t.value? path := by
  obtain ⟨value, children⟩ := t
  cases path with
  | nil => exact absurd rfl h
  | cons index path => rw [modify, value?_cons, value?_cons, children_node, children_node]

end Tree

/-! ## Moves and edits on paths -/

/-- A move or an edit of a cursor. -/
inductive Cursor.Action (α : Type) where
  /-- Move to a child. -/
  | child (index : Nat)
  /-- Follow a path down. -/
  | descend (path : NodePath)
  /-- Move to the parent. -/
  | up
  /-- Move to the root. -/
  | root
  /-- Move to the first child with a property. -/
  | openFirst (p : Tree α → Bool)
  /-- Put another subtree in place of the focus. -/
  | replace (t : Tree α)
  /-- Change the value in focus. -/
  | modify (f : α → α)
  /-- Put a subtree right after the focus. -/
  | insert (t : Tree α)
  /-- Put a subtree after the last child. -/
  | pushChild (t : Tree α)
  /-- Remove the focus. -/
  | delete

/-- A tree and the path of a node in it. -/
structure Spot (α : Type) where
  /-- The whole tree. -/
  tree : Tree α
  /-- Where the node is. -/
  path : NodePath

namespace Spot

def ofTree (t : Tree α) : Spot α := ⟨t, []⟩

/-- Whether there is a node at the end of a path from here. -/
def Has (s : Spot α) (path : NodePath) : Prop := (s.tree.get? (s.path ++ path)).isSome

instance (s : Spot α) (path : NodePath) : Decidable (s.Has path) :=
  inferInstanceAs (Decidable (_ = true))

def along (s : Spot α) (path : NodePath) : Spot α := { s with path := s.path ++ path }

def children (s : Spot α) : List (Tree α) := (s.tree.get? s.path).elim [] Tree.children

/-- How many steps of a path exist: the length of its longest beginning with a node at the end. -/
def reach (s : Spot α) (path : NodePath) : Nat :=
  Nat.findGreatest (fun steps ↦ s.Has (path.take steps)) path.length

/-- The place to move to when the child at a position was removed and `count` are left: the one
that came after it, else the one before it, else the parent. -/
def afterRemoval (parent : NodePath) (index count : Nat) : NodePath :=
  if index < count then parent ++ [index]
  else if 0 < index then parent ++ [index - 1]
  else parent

/-- What a move or an edit does at a place: whether it succeeds, and the tree and the place after
it. Only edits change the tree. -/
def act [Variadic α] (s : Spot α) : Cursor.Action α → Bool × Spot α
  | .child index => if s.Has [index] then (true, s.along [index]) else (false, s)
  | .descend path => (s.reach path = path.length, s.along (path.take (s.reach path)))
  | .up => if s.path = [] then (false, s) else (true, ⟨s.tree, s.path.dropLast⟩)
  | .root => (true, ofTree s.tree)
  | .openFirst p =>
    match s.children.findIdx? p with
    | some index => (true, s.along [index])
    | none => (false, s)
  | .replace t => (true, ⟨s.tree.alterAt (fun _ ↦ t) s.path, s.path⟩)
  | .modify f => (true, ⟨s.tree.alterAt (·.modify f) s.path, s.path⟩)
  | .insert t =>
    match s.path.getLast? with
    | none => (true, s)
    | some index =>
      let parent := s.path.dropLast
      (true, ⟨s.tree.alterAt (·.alterChildren (·.insertIdx (index + 1) t)) parent,
        parent ++ [index + 1]⟩)
  | .pushChild t =>
    (true, ⟨s.tree.alterAt (·.alterChildren (· ++ [t])) s.path, s.path ++ [s.children.length]⟩)
  | .delete =>
    match s.path.getLast? with
    | none => (true, s)
    | some index =>
      let parent := s.path.dropLast
      if (s.tree.value? parent).any Variadic.isVariadic then
        (true, ⟨s.tree.alterAt (·.alterChildren (·.eraseIdx index)) parent,
          afterRemoval parent index ((⟨s.tree, parent⟩ : Spot α).children.length - 1)⟩)
      else (true, s)

def run [Variadic α] (s : Spot α) (actions : List (Cursor.Action α)) : Spot α :=
  actions.foldl (fun s action ↦ (s.act action).2) s

theorem Has.of_longer {s : Spot α} {path longer : NodePath} (h : s.Has longer)
    (hbegins : path <+: longer) : s.Has path := by
  obtain ⟨rest, rfl⟩ := hbegins
  rw [Has, ← List.append_assoc, Tree.get?_append] at h
  rw [Has]
  cases hget : s.tree.get? (s.path ++ path) with
  | none => simp [hget] at h
  | some t => rfl

/-- A path is followed to the end if it leads to a node there, and else up to the step that is
missing. -/
theorem reach_eq {s : Spot α} {path : NodePath} {steps : Nat} (hsteps : steps ≤ path.length)
    (hhas : s.Has (path.take steps))
    (hend : steps < path.length → ¬s.Has (path.take (steps + 1))) : s.reach path = steps := by
  rw [reach, Nat.findGreatest_eq_iff]
  refine ⟨hsteps, fun _ ↦ hhas, fun longer hlt hle hlonger ↦ hend (by omega) ?_⟩
  exact hlonger.of_longer (List.take_prefix_take_left hlt)

end Spot

namespace Cursor

/-- The outcome of a move that may fail. A failed move hands back the cursor. -/
def moved (c : Cursor α) (move : Option (Cursor α)) : Bool × Cursor α :=
  (move.isSome, move.getD c)

/-- What a move or an edit does to a cursor: whether it succeeds, and the cursor it hands back. -/
def act [Variadic α] (c : Cursor α) : Action α → Bool × Cursor α
  | .child index => c.moved (c.child? index)
  | .descend path =>
    match c.descend path with
    | .ok c' => (true, c')
    | .error c' => (false, c')
  | .up => c.moved c.up?
  | .root => (true, c.root)
  | .openFirst p => c.moved (c.open? p)
  | .replace t => (true, c.replace t)
  | .modify f => (true, c.modify f)
  | .insert t => (true, c.insert t)
  | .pushChild t => (true, c.pushChild t)
  | .delete => (true, c.delete)

def run [Variadic α] (c : Cursor α) (actions : List (Action α)) : Cursor α :=
  actions.foldl (fun c action ↦ (c.act action).2) c

def spot (c : Cursor α) : Spot α := ⟨c.tree, c.path⟩

/-! ## The tree at the path of a cursor -/

theorem get?_path (c : Cursor α) : c.tree.get? c.path = some c.focus := by
  obtain ⟨t, crumbs⟩ := c
  induction crumbs generalizing t with
  | nil => rfl
  | cons crumb crumbs ih =>
    rw [tree_cons, path_cons, Tree.get?_append, ih]
    simp [Tree.get?, Crumb.close]

theorem get?_path_append (c : Cursor α) (path : NodePath) :
    c.tree.get? (c.path ++ path) = c.focus.get? path := by
  rw [Tree.get?_append, get?_path]
  rfl

theorem alterAt_close (f : Tree α → Tree α) (crumb : Crumb α) (t : Tree α) :
    (crumb.close t).alterAt f [crumb.before.length] = crumb.close (f t) := by
  have hmodify : ∀ before : List (Tree α), (before ++ t :: crumb.after).modify before.length f =
      before ++ f t :: crumb.after := by
    intro before
    induction before with
    | nil => rfl
    | cons b before ih => rw [List.cons_append, List.length_cons, List.modify_succ_cons, ih]; rfl
  rw [Crumb.close, Crumb.close, ← hmodify crumb.before]
  rfl

/-- **To change the tree at the path of a cursor is to change the focus.** -/
theorem alterAt_path (c : Cursor α) (f : Tree α → Tree α) :
    c.tree.alterAt f c.path = (c.replace (f c.focus)).tree := by
  obtain ⟨t, crumbs⟩ := c
  -- from the innermost level outwards: each crumb closes over a change one level further down
  induction crumbs generalizing t f with
  | nil => rfl
  | cons crumb crumbs ih =>
    rw [tree_cons, path_cons, Tree.alterAt_append, ih, alterAt_close]
    rfl

/-! ## Moves -/

theorem has_spot_iff (c : Cursor α) (path : NodePath) :
    c.spot.Has path ↔ (c.focus.get? path).isSome := by
  rw [Spot.Has, spot, get?_path_append]

theorem children_spot (c : Cursor α) : c.spot.children = c.focus.children := by
  rw [Spot.children, spot, get?_path]
  rfl

theorem child?_eq_some {c c' : Cursor α} {index : Nat} (h : c.child? index = some c') :
    ∃ crumb t, crumb.before.length = index ∧ c = ⟨crumb.close t, c.crumbs⟩ ∧
      c' = ⟨t, crumb :: c.crumbs⟩ := by
  unfold child? at h
  split at h
  · cases h
  · next t after hdrop =>
    cases h
    refine ⟨⟨c.value, c.focus.children.take index, after⟩, t, ?_, ?_, rfl⟩
    · rw [List.length_take, Nat.min_eq_left]
      by_contra hlt
      rw [List.drop_of_length_le (by omega)] at hdrop
      cases hdrop
    · rw [Crumb.close, ← hdrop, List.take_append_drop, value, Tree.node_value_children]

theorem child?_spot {c c' : Cursor α} {index : Nat} (h : c.child? index = some c') :
    c'.spot = c.spot.along [index] := by
  obtain ⟨crumb, t, rfl, hc, rfl⟩ := child?_eq_some h
  rw [hc, spot, tree_cons, path_cons]
  rfl

theorem child?_isSome_iff (c : Cursor α) (index : Nat) :
    (c.child? index).isSome ↔ c.spot.Has [index] := by
  rw [has_spot_iff, Tree.get?_cons, child?, ← List.head?_drop]
  cases c.focus.children.drop index with
  | nil => simp
  | cons t after => simp [Tree.get?]

theorem act_child [Variadic α] (c : Cursor α) (index : Nat) :
    (c.act (.child index)).map id spot = c.spot.act (.child index) := by
  rw [act, moved, Spot.act]
  cases hchild : c.child? index with
  | none =>
    rw [if_neg (by rw [← child?_isSome_iff, hchild]; simp)]
    rfl
  | some c' =>
    rw [if_pos (by rw [← child?_isSome_iff, hchild]; simp), ← child?_spot hchild]
    rfl

theorem act_openFirst [Variadic α] (c : Cursor α) (p : Tree α → Bool) :
    (c.act (.openFirst p)).map id spot = c.spot.act (.openFirst p) := by
  rw [act, moved, open?, Spot.act, children_spot]
  cases hfind : c.focus.children.findIdx? p with
  | none => rfl
  | some index =>
    -- the position found is one of the children, so the move succeeds
    obtain ⟨hindex, _⟩ := List.findIdx?_eq_some_iff_getElem.mp hfind
    have hsome : (c.child? index).isSome := by
      rw [child?_isSome_iff, has_spot_iff, Tree.get?_cons, List.getElem?_eq_getElem hindex]
      rfl
    obtain ⟨c', hc'⟩ := Option.isSome_iff_exists.mp hsome
    simp only [hc', Option.isSome_some, Option.getD_some, Prod.map_apply, id_eq,
      child?_spot hc']

theorem act_up [Variadic α] (c : Cursor α) : (c.act .up).map id spot = c.spot.act .up := by
  obtain ⟨t, crumbs⟩ := c
  cases crumbs with
  | nil => rfl
  | cons crumb crumbs =>
    have hpath := path_cons t crumb crumbs
    rw [act, moved, Spot.act, if_neg (by simp [spot, hpath])]
    simp [up?, spot, hpath]

/-- A descent goes down as far as the path leads, and no further step is there. -/
theorem descend_spot (c : Cursor α) (path : NodePath) :
    (∃ c', c.descend path = .ok c' ∧ c'.spot = c.spot.along path) ∨
      ∃ c' steps, c.descend path = .error c' ∧ steps < path.length ∧
        c'.spot = c.spot.along (path.take steps) ∧ ¬c.spot.Has (path.take (steps + 1)) := by
  induction path generalizing c with
  | nil => exact Or.inl ⟨c, rfl, by simp [Spot.along]⟩
  | cons index path ih =>
    rw [descend]
    cases hchild : c.child? index with
    | none =>
      refine Or.inr ⟨c, 0, rfl, by simp, by simp [Spot.along], ?_⟩
      rw [List.take_succ_cons, List.take_zero, ← child?_isSome_iff, hchild]
      simp
    | some child =>
      have hspot := child?_spot hchild
      rcases ih child with ⟨c', hc', hdown⟩ | ⟨c', steps, hc', hsteps, hdown, hend⟩
      · refine Or.inl ⟨c', hc', ?_⟩
        rw [hdown, hspot]
        simp [Spot.along]
      · refine Or.inr ⟨c', steps + 1, hc', by simpa using hsteps, ?_, ?_⟩
        · rw [hdown, hspot]
          simp [Spot.along]
        · rw [hspot] at hend
          simpa [Spot.Has, Spot.along] using hend

theorem act_descend [Variadic α] (c : Cursor α) (path : NodePath) :
    (c.act (.descend path)).map id spot = c.spot.act (.descend path) := by
  -- a cursor that was reached stands on a node
  have hnode : ∀ (c' : Cursor α) way, c'.spot = c.spot.along way → c.spot.Has way := by
    intro c' way hspot
    have hpath : c'.path = c.path ++ way := congrArg Spot.path hspot
    have htree : c'.tree = c.tree := congrArg Spot.tree hspot
    rw [Spot.Has, spot, ← hpath, ← htree, get?_path]
    rfl
  rw [act, Spot.act]
  rcases descend_spot c path with ⟨c', hc', hspot⟩ | ⟨c', steps, hc', hsteps, hspot, hend⟩
  · have hreach : c.spot.reach path = path.length :=
      Spot.reach_eq le_rfl (by rw [List.take_length]; exact hnode c' path hspot)
        fun hlt ↦ absurd hlt (lt_irrefl _)
    simp [hc', hspot, hreach]
  · have hreach : c.spot.reach path = steps :=
      Spot.reach_eq (Nat.le_of_lt hsteps) (hnode c' _ hspot) fun _ ↦ hend
    simp [hc', hspot, hreach, Nat.ne_of_lt hsteps]

/-! ## Edits -/

/-- A change among the siblings of the focus is a change of the children of its parent. -/
theorem alterAt_parent (t : Tree α) (crumb : Crumb α) (crumbs : List (Crumb α))
    (f : List (Tree α) → List (Tree α)) :
    (tree ⟨t, crumb :: crumbs⟩).alterAt (·.alterChildren f) (path ⟨crumb.close t, crumbs⟩) =
      plug (.node crumb.parent (f (crumb.before ++ t :: crumb.after))) crumbs := by
  rw [tree_cons, alterAt_path]
  rfl

theorem act_replace [Variadic α] (c : Cursor α) (t : Tree α) :
    (c.act (.replace t)).map id spot = c.spot.act (.replace t) := by
  rw [act, Spot.act, spot, alterAt_path]
  rfl

theorem act_modify [Variadic α] (c : Cursor α) (f : α → α) :
    (c.act (.modify f)).map id spot = c.spot.act (.modify f) := by
  rw [act, Spot.act, spot, alterAt_path]
  rfl

theorem act_insert [Variadic α] (c : Cursor α) (t : Tree α) :
    (c.act (.insert t)).map id spot = c.spot.act (.insert t) := by
  obtain ⟨focus, crumbs⟩ := c
  cases crumbs with
  | nil => rfl
  | cons crumb crumbs =>
    have hinsert : ∀ before : List (Tree α),
        (before ++ focus :: crumb.after).insertIdx (before.length + 1) t =
          before ++ [focus] ++ t :: crumb.after := by
      intro before
      induction before with
      | nil => rfl
      | cons b before ih => simpa using ih
    rw [Spot.act, spot, path_cons, List.getLast?_concat, List.dropLast_concat]
    dsimp only
    rw [alterAt_parent, hinsert]
    simp [act, insert, spot, Crumb.close, path, tree, plug]

theorem act_pushChild [Variadic α] (c : Cursor α) (t : Tree α) :
    (c.act (.pushChild t)).map id spot = c.spot.act (.pushChild t) := by
  rw [act, Spot.act, children_spot, spot, alterAt_path, pushChild, Prod.map_apply, spot, tree_cons,
    path_cons]
  rfl

theorem act_delete [Variadic α] (c : Cursor α) :
    (c.act .delete).map id spot = c.spot.act .delete := by
  obtain ⟨focus, crumbs⟩ := c
  cases crumbs with
  | nil => rfl
  | cons crumb crumbs =>
    obtain ⟨parent, before, after⟩ := crumb
    have hvalue : (tree ⟨focus, ⟨parent, before, after⟩ :: crumbs⟩).value?
        (path ⟨Crumb.close ⟨parent, before, after⟩ focus, crumbs⟩) = some parent := by
      rw [tree_cons, Tree.value?, get?_path]
      rfl
    have herase : (before ++ focus :: after).eraseIdx before.length = before ++ after := by
      rw [List.eraseIdx_append_of_length_le le_rfl, Nat.sub_self, List.eraseIdx_cons_zero]
    have hsiblings : Spot.children ⟨tree ⟨focus, ⟨parent, before, after⟩ :: crumbs⟩,
        path ⟨Crumb.close ⟨parent, before, after⟩ focus, crumbs⟩⟩ = before ++ focus :: after :=
      children_spot ⟨Crumb.close ⟨parent, before, after⟩ focus, crumbs⟩
    rw [act, delete, Spot.act, spot, path_cons, List.getLast?_concat, List.dropLast_concat]
    dsimp only
    rw [hvalue, Option.any_some, hsiblings, alterAt_parent, herase, List.length_append,
      List.length_cons]
    by_cases hvariadic : Variadic.isVariadic parent = true
    · rw [if_pos hvariadic, if_pos hvariadic]
      cases after with
      | cons next after =>
        -- the next sibling moves up to the position of the focus
        rw [Spot.afterRemoval, if_pos (by simp)]
        simp [spot, tree, plug, path, Crumb.close]
      | nil =>
        cases hlast : before.getLast? with
        | none =>
          obtain rfl := List.getLast?_eq_none_iff.mp hlast
          rfl
        | some previous =>
          obtain ⟨others, rfl⟩ := List.getLast?_eq_some_iff.mp hlast
          rw [Spot.afterRemoval, if_neg (by simp), if_pos (by simp)]
          simp [spot, tree, plug, path, Crumb.close]
    · rw [if_neg hvariadic, if_neg hvariadic, Prod.map_apply, spot, path_cons]
      rfl

/-! ## Runs -/

/-- **A cursor does what is done at its path.** -/
theorem act_spot [Variadic α] (c : Cursor α) (action : Action α) :
    (c.act action).map id spot = c.spot.act action := by
  cases action with
  | child index => exact c.act_child index
  | descend path => exact c.act_descend path
  | up => exact c.act_up
  | root => rfl
  | openFirst p => exact c.act_openFirst p
  | replace t => exact c.act_replace t
  | modify f => exact c.act_modify f
  | insert t => exact c.act_insert t
  | pushChild t => exact c.act_pushChild t
  | delete => exact c.act_delete

theorem run_spot [Variadic α] (c : Cursor α) (actions : List (Action α)) :
    (c.run actions).spot = c.spot.run actions := by
  induction actions generalizing c with
  | nil => rfl
  | cons action actions ih =>
    rw [run, Spot.run, List.foldl_cons, List.foldl_cons, ← run, ← Spot.run, ih, ← act_spot]
    rfl

/-- **A cursor is a tree and a path.** After any moves and edits from the root of a tree, a cursor
stands for the tree and the path that the same moves and edits on paths lead to. The focus is the
subtree at the path, the path leads back to the cursor, and the next move or edit succeeds or fails
on both sides alike. Another subtree in place of the focus leaves all other nodes as they are, and
so does another value in focus. -/
theorem run_refines_spot [Variadic α] (t : Tree α) (actions : List (Action α)) :
    let c := (ofTree t).run actions
    c.spot = (Spot.ofTree t).run actions ∧
      c.tree.get? c.path = some c.focus ∧
      (ofTree c.tree).descend c.path = .ok c ∧
      (∀ action, (c.act action).map id spot = c.spot.act action) ∧
      (∀ t' other, ¬c.path <+: other → (c.replace t').tree.value? other = c.tree.value? other) ∧
      ∀ f other, other ≠ c.path → (c.modify f).tree.value? other = c.tree.value? other := by
  intro c
  refine ⟨run_spot _ actions, c.get?_path, c.descend_path, c.act_spot, ?_, ?_⟩
  · intro t' other hother
    have htree : (c.replace t').tree = c.tree.alterAt (fun _ ↦ t') c.path :=
      (c.alterAt_path fun _ ↦ t').symm
    rw [htree]
    exact Tree.value?_alterAt (fun rest hrest ↦ absurd ⟨rest, hrest.symm⟩ hother) _
  · intro f other hother
    have htree : (c.modify f).tree = c.tree.alterAt (·.modify f) c.path := (c.alterAt_path _).symm
    rw [htree]
    refine Tree.value?_alterAt (fun rest hrest s ↦ Tree.value?_modify ?_ s) _
    rintro rfl
    exact hother (by rw [hrest, List.append_nil])

theorem run_refines_spot_elements :
    let element := fun text ↦ (.leaf (.ofAtom .bool text) : Tree Node)
    let t := .node (.plain (.list (.atom .bool))) [element "true", element "false"]
    let actions := [.descend [1, 4], .delete, .insert (element "maybe"), .up, .child 7, .child 1]
    let c := (ofTree t).run actions
    c.path = [1] ∧ ¬c.path <+: [0] ∧ c.spot = (Spot.ofTree t).run actions ∧
      c.tree.get? [1] = some (element "maybe") ∧
      (c.replace t).tree.value? [0] = some (.ofAtom .bool "true") := by
  intro element t actions c
  have hpath : c.path = [1] := by decide
  have hother : ¬c.path <+: [0] := by decide
  obtain ⟨hspot, _, _, _, hreplace, _⟩ := run_refines_spot t actions
  exact ⟨hpath, hother, hspot, by decide, (hreplace t [0] hother).trans (by decide)⟩

end Cursor

end FormulaEdit
