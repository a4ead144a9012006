import FormulaEdit.Proofs.Spot

/-!
# Changes of a tree at one place

Whatever is done to a tree in one step is one of four things: another subtree is put at a path,
another value is assigned there, a child is inserted, or a child is removed. A `Change` says which,
as data. It can be carried out (`Change.on`), and it tells for each node of the tree where the node
is afterwards (`Change.carry?`).

The second reading is the frame. A node that is carried keeps its value (`Change.value?_on`), it
stays or moves by one position (`Change.shifts_of_carry?`), and nodes keep their order
(`Change.keepsOrder_carry?`). All this is seen below the node that is changed, where there is no
path to follow, and holds of the whole tree since nothing else moves (`NodePath.below?`).

A cursor makes changes of this sort at its path, and is left at a place that the path tells.
-/

namespace FormulaEdit

variable {α : Type}

/-! ## Changes at a path, again -/

namespace Tree

theorem get?_alterAt (f : Tree α → Tree α) (path : NodePath) (t : Tree α) :
    (t.alterAt f path).get? path = (t.get? path).map f := by
  induction path generalizing t with
  | nil => rfl
  | cons index path ih =>
    rw [get?_cons, get?_cons, alterAt, children_node, List.getElem?_modify]
    cases t.children[index]? with
    | none => rfl
    | some child => simpa using ih child

theorem alterAt_alterAt (f f' : Tree α → Tree α) (path : NodePath) (t : Tree α) :
    (t.alterAt f path).alterAt f' path = t.alterAt (f' ∘ f) path := by
  induction path generalizing t with
  | nil => rfl
  | cons index path ih =>
    have hbelow : alterAt f' path ∘ alterAt f path = alterAt (f' ∘ f) path := funext ih
    simp only [alterAt, value_node, children_node, List.modify_modify_eq, hbelow]

theorem alterAt_id (path : NodePath) (t : Tree α) : t.alterAt id path = t := by
  induction path generalizing t with
  | nil => rfl
  | cons index path ih =>
    have hbelow : alterAt id path = (id : Tree α → Tree α) := funext ih
    simp only [alterAt, hbelow, List.modify_id, node_value_children]

end Tree

/-! ## Where nodes go -/

namespace NodePath

/-- Where children go, as a move of what lies below their parent. The parent stays. -/
def shift? (move : Nat → Option Nat) : NodePath → Option NodePath
  | [] => some []
  | index :: path => (move index).map (· :: path)

/-- A move of what lies at and below the node at a path, as a move of the whole tree. All else
stays. -/
def below? (move : NodePath → Option NodePath) : NodePath → NodePath → Option NodePath
  | [], path => move path
  | _ :: _, [] => some []
  | step :: base, index :: path =>
    if step = index then (below? move base path).map (index :: ·) else some (index :: path)

/-- Nodes that a move does not drop keep their order, parents before children and one child before
the next. -/
def KeepsOrder (move : NodePath → Option NodePath) : Prop :=
  ∀ ⦃path path' other other' : NodePath⦄, move path = some path' → move other = some other' →
    List.Lex (· < ·) path other → List.Lex (· < ·) path' other'

theorem shift?_cons {move : Nat → Option Nat} {i : Nat} {path path' : NodePath}
    (h : shift? move (i :: path) = some path') : ∃ i', move i = some i' ∧ path' = i' :: path := by
  obtain ⟨i', hi, hpath⟩ := Option.map_eq_some_iff.mp h
  exact ⟨i', hi, hpath.symm⟩

theorem KeepsOrder.shift? {move : Nat → Option Nat}
    (h : ∀ ⦃i i' j j'⦄, move i = some i' → move j = some j' → i < j → i' < j') :
    KeepsOrder (shift? move) := by
  intro path path' other other' hpath hother hlex
  cases hlex with
  | nil =>
    cases hpath
    obtain ⟨_, _, rfl⟩ := shift?_cons hother
    exact .nil
  | cons hrest =>
    obtain ⟨i', hi, rfl⟩ := shift?_cons hpath
    obtain ⟨j', hj, rfl⟩ := shift?_cons hother
    obtain rfl := Option.some.inj (hi.symm.trans hj)
    exact .cons hrest
  | rel hlt =>
    obtain ⟨i', hi, rfl⟩ := shift?_cons hpath
    obtain ⟨j', hj, rfl⟩ := shift?_cons hother
    exact .rel (h hi hj hlt)

theorem below?_cons {move : NodePath → Option NodePath} {step index : Nat}
    {base path path' : NodePath} (h : below? move (step :: base) (index :: path) = some path') :
    ∃ rest, path' = index :: rest ∧
      (step = index ∧ below? move base path = some rest ∨ step ≠ index ∧ rest = path) := by
  rw [below?] at h
  split_ifs at h with hstep
  · obtain ⟨rest, hrest, rfl⟩ := Option.map_eq_some_iff.mp h
    exact ⟨rest, rfl, Or.inl ⟨hstep, hrest⟩⟩
  · cases h
    exact ⟨path, rfl, Or.inr ⟨hstep, rfl⟩⟩

/-- What a move of the nodes below a path does to a node: it moves the rest of the way there, or
leaves a node that is not there. -/
theorem below?_eq_some {move : NodePath → Option NodePath} {base path path' : NodePath}
    (h : below? move base path = some path') :
    (∃ rest rest', path = base ++ rest ∧ path' = base ++ rest' ∧ move rest = some rest') ∨
      ¬base <+: path ∧ path' = path := by
  induction base generalizing path path' with
  | nil => exact Or.inl ⟨path, path', rfl, rfl, h⟩
  | cons step base ih =>
    cases path with
    | nil =>
      cases h
      exact Or.inr ⟨by simp, rfl⟩
    | cons index path =>
      obtain ⟨path', rfl, ⟨rfl, hdown⟩ | ⟨hstep, rfl⟩⟩ := below?_cons h
      · rcases ih hdown with ⟨rest, rest', rfl, rfl, hmove⟩ | ⟨hnot, rfl⟩
        · exact Or.inl ⟨rest, rest', rfl, rfl, hmove⟩
        · exact Or.inr ⟨fun hpre ↦ hnot (List.cons_prefix_cons.mp hpre).2, rfl⟩
      · exact Or.inr ⟨fun hpre ↦ hstep (List.cons_prefix_cons.mp hpre).1, rfl⟩

theorem below?_shift?_eq_some {move : Nat → Option Nat} {parent path path' : NodePath}
    (h : below? (shift? move) parent path = some path') :
    path' = path ∨ ∃ i i' rest, path = parent ++ i :: rest ∧ path' = parent ++ i' :: rest ∧
      move i = some i' := by
  rcases below?_eq_some h with ⟨rest, rest', rfl, rfl, hmove⟩ | ⟨_, hsame⟩
  · cases rest with
    | nil =>
      cases hmove
      exact Or.inl rfl
    | cons i rest =>
      obtain ⟨i', hi, rfl⟩ := shift?_cons hmove
      exact Or.inr ⟨i, i', rest, rfl, rfl, hi⟩
  · exact Or.inl hsame

theorem below?_eq_none {move : NodePath → Option NodePath} {base path : NodePath}
    (h : below? move base path = none) : ∃ rest, path = base ++ rest ∧ move rest = none := by
  induction base generalizing path with
  | nil => exact ⟨path, rfl, h⟩
  | cons step base ih =>
    cases path with
    | nil => cases h
    | cons index path =>
      rw [below?] at h
      split_ifs at h with hstep
      obtain ⟨rest, rfl, hrest⟩ := ih (Option.map_eq_none_iff.mp h)
      exact ⟨rest, by rw [hstep]; rfl, hrest⟩

theorem KeepsOrder.below? {move : NodePath → Option NodePath} (h : KeepsOrder move)
    (base : NodePath) : KeepsOrder (below? move base) := by
  induction base with
  | nil => exact h
  | cons step base ih =>
    intro path path' other other' hpath hother hlex
    cases hlex with
    | nil =>
      cases hpath
      obtain ⟨_, rfl, _⟩ := below?_cons hother
      exact .nil
    | rel hlt =>
      obtain ⟨_, rfl, _⟩ := below?_cons hpath
      obtain ⟨_, rfl, _⟩ := below?_cons hother
      exact .rel hlt
    | cons hrest =>
      -- the two part further down, on the way of the base or off it
      obtain ⟨rest, rfl, ⟨hstep, hdown⟩ | ⟨hstep, rfl⟩⟩ := below?_cons hpath
      · obtain ⟨rest', rfl, ⟨_, hdown'⟩ | ⟨hne, _⟩⟩ := below?_cons hother
        · exact .cons (ih hdown hdown' hrest)
        · exact absurd hstep hne
      · obtain ⟨rest', rfl, ⟨heq, _⟩ | ⟨_, rfl⟩⟩ := below?_cons hother
        · exact absurd heq hstep
        · exact .cons hrest

end NodePath

namespace Tree

/-- **The frame of a change at a path.** What a change keeps of a subtree, it keeps of the whole
tree. -/
theorem value?_alterAt_below? {f : Tree α → Tree α} {move : NodePath → Option NodePath}
    (h : ∀ s path path', move path = some path' → (f s).value? path' = s.value? path)
    {base path path' : NodePath} (hpath : NodePath.below? move base path = some path')
    (t : Tree α) : (t.alterAt f base).value? path' = t.value? path := by
  rcases NodePath.below?_eq_some hpath with ⟨rest, rest', rfl, rfl, hmove⟩ | ⟨hnot, rfl⟩
  · rw [value?, value?, get?_append, get?_append, get?_alterAt]
    cases t.get? base with
    | none => rfl
    | some s => exact h s rest rest' hmove
  · exact value?_alterAt (fun rest hrest ↦ absurd ⟨rest, hrest.symm⟩ hnot) t

theorem value?_alterChildren_shift? {f : List (Tree α) → List (Tree α)} {move : Nat → Option Nat}
    (h : ∀ parts i i', move i = some i' → (f parts)[i']? = parts[i]?) (t : Tree α)
    {path path' : NodePath} (hpath : NodePath.shift? move path = some path') :
    (t.alterChildren f).value? path' = t.value? path := by
  cases path with
  | nil =>
    cases hpath
    rfl
  | cons index path =>
    obtain ⟨i', hi, rfl⟩ := NodePath.shift?_cons hpath
    rw [value?_cons, value?_cons, alterChildren, children_node, h t.children index i' hi]

end Tree

/-! ## Changes -/

/-- A change of a tree at one place. -/
inductive Change (α : Type) where
  /-- Another subtree at a path. -/
  | put (path : NodePath) (part : Tree α)
  /-- Another value at a path. -/
  | assign (path : NodePath) (value : α)
  /-- One more child of the node at a path, which takes the given position. -/
  | insert (parent : NodePath) (index : Nat) (part : Tree α)
  /-- One child less of the node at a path. -/
  | remove (parent : NodePath) (index : Nat)
  deriving DecidableEq

namespace Change

def on (t : Tree α) : Change α → Tree α
  | put path part => t.alterAt (fun _ ↦ part) path
  | assign path value => t.alterAt (·.modify fun _ ↦ value) path
  | insert parent index part => t.alterAt (·.alterChildren (·.insertIdx index part)) parent
  | remove parent index => t.alterAt (·.alterChildren (·.eraseIdx index)) parent

/-- Where a child goes when another one takes a position. -/
def makeRoom (index i : Nat) : Option Nat := some (if i < index then i else i + 1)

/-- Where a child goes when the one at a position is removed. That one is gone. -/
def closeUp (index i : Nat) : Option Nat :=
  if i < index then some i else if i = index then none else some (i - 1)

/-- Where a node that the change leaves alone is after it. Nodes that are replaced, assigned to or
removed have no such place. -/
def carry? : Change α → NodePath → Option NodePath
  | put path _ => NodePath.below? (fun _ ↦ none) path
  | assign path _ => NodePath.below? (fun rest ↦ if rest = [] then none else some rest) path
  | insert parent index _ => NodePath.below? (NodePath.shift? (makeRoom index)) parent
  | remove parent index => NodePath.below? (NodePath.shift? (closeUp index)) parent

/-- A node that is, or is below, a child after the place of an insertion or a removal. It moves by
one position. -/
inductive Shifts : Change α → NodePath → NodePath → Prop
  /-- To the next position, where a child is inserted. -/
  | forth {parent rest : NodePath} {index i : Nat} {part : Tree α} (after : index ≤ i) :
      Shifts (insert parent index part) (parent ++ i :: rest) (parent ++ (i + 1) :: rest)
  /-- To the position before, where a child is removed. -/
  | back {parent rest : NodePath} {index i : Nat} (after : index ≤ i) :
      Shifts (remove parent index) (parent ++ (i + 1) :: rest) (parent ++ i :: rest)

/-- The node at or below which nodes are not carried. An insertion spares all nodes. -/
def site? : Change α → Option NodePath
  | put path _ => some path
  | assign path _ => some path
  | insert _ _ _ => none
  | remove parent index => some (parent ++ [index])

/-- **All that is not at the site of a change or below it is carried.** -/
theorem exists_site?_of_carry?_eq_none {change : Change α} {path : NodePath}
    (h : change.carry? path = none) : ∃ site, change.site? = some site ∧ site <+: path := by
  cases change with
  | put base part =>
    obtain ⟨rest, rfl, _⟩ := NodePath.below?_eq_none h
    exact ⟨base, rfl, rest, rfl⟩
  | assign base value =>
    obtain ⟨rest, rfl, _⟩ := NodePath.below?_eq_none h
    exact ⟨base, rfl, rest, rfl⟩
  | insert parent index part =>
    obtain ⟨rest, rfl, hrest⟩ := NodePath.below?_eq_none h
    cases rest <;> cases hrest
  | remove parent index =>
    obtain ⟨rest, rfl, hrest⟩ := NodePath.below?_eq_none h
    cases rest with
    | nil => cases hrest
    | cons i rest =>
      rw [NodePath.shift?, Option.map_eq_none_iff, closeUp] at hrest
      split_ifs at hrest with _ hindex
      rw [hindex]
      exact ⟨parent ++ [index], rfl, rest, List.append_assoc _ _ _⟩

theorem getElem?_insertIdx_makeRoom {index i i' : Nat} (h : makeRoom index i = some i')
    (parts : List (Tree α)) (part : Tree α) : (parts.insertIdx index part)[i']? = parts[i]? := by
  obtain rfl := Option.some.inj h
  rw [List.getElem?_insertIdx]
  by_cases hlt : i < index
  · rw [if_pos hlt, if_pos hlt]
  · rw [if_neg hlt, if_neg (by omega), if_neg (by omega), Nat.add_sub_cancel]

theorem getElem?_eraseIdx_closeUp {index i i' : Nat} (h : closeUp index i = some i')
    (parts : List (Tree α)) : (parts.eraseIdx index)[i']? = parts[i]? := by
  rw [List.getElem?_eraseIdx]
  rw [closeUp] at h
  split_ifs at h with hlt heq
  · cases h
    rw [if_pos hlt]
  · cases h
    rw [if_neg (by omega), Nat.sub_add_cancel (by omega)]

/-- **A change leaves all else alone.** Nodes that are carried keep their values. -/
theorem value?_on {change : Change α} {path path' : NodePath}
    (h : change.carry? path = some path') (t : Tree α) :
    (change.on t).value? path' = t.value? path := by
  cases change with
  | put base part => exact Tree.value?_alterAt_below? (fun _ _ _ hmove ↦ by cases hmove) h t
  | assign base value =>
    refine Tree.value?_alterAt_below? (fun s rest rest' hmove ↦ ?_) h t
    split_ifs at hmove with hrest
    cases hmove
    exact Tree.value?_modify hrest s
  | insert parent index part =>
    exact Tree.value?_alterAt_below? (fun s _ _ ↦ Tree.value?_alterChildren_shift?
      (fun parts _ _ hi ↦ getElem?_insertIdx_makeRoom hi parts part) s) h t
  | remove parent index =>
    exact Tree.value?_alterAt_below? (fun s _ _ ↦ Tree.value?_alterChildren_shift?
      (fun parts _ _ hi ↦ getElem?_eraseIdx_closeUp hi parts) s) h t

/-- **A change moves nodes by one position at most**, and those only that come after the place of
an insertion or a removal. -/
theorem shifts_of_carry? {change : Change α} {path path' : NodePath}
    (h : change.carry? path = some path') : path' = path ∨ change.Shifts path path' := by
  cases change with
  | put base part =>
    rcases NodePath.below?_eq_some h with ⟨_, _, _, _, hmove⟩ | ⟨_, hsame⟩
    · cases hmove
    · exact Or.inl hsame
  | assign base value =>
    rcases NodePath.below?_eq_some h with ⟨rest, rest', rfl, rfl, hmove⟩ | ⟨_, hsame⟩
    · split_ifs at hmove
      exact Or.inl (congrArg (base ++ ·) (Option.some.inj hmove).symm)
    · exact Or.inl hsame
  | insert parent index part =>
    obtain hsame | ⟨i, i', rest, rfl, rfl, hi⟩ := NodePath.below?_shift?_eq_some h
    · exact Or.inl hsame
    · rw [makeRoom] at hi
      split_ifs at hi with hlt
      · cases hi
        exact Or.inl rfl
      · cases hi
        exact Or.inr (.forth (Nat.le_of_not_lt hlt))
  | remove parent index =>
    obtain hsame | ⟨i, i', rest, rfl, rfl, hi⟩ := NodePath.below?_shift?_eq_some h
    · exact Or.inl hsame
    · rw [closeUp] at hi
      split_ifs at hi with hlt heq
      · cases hi
        exact Or.inl rfl
      · cases hi
        -- a child after the one that is removed is not the first
        obtain ⟨i, rfl⟩ : ∃ before, i = before + 1 := ⟨i - 1, by omega⟩
        exact Or.inr (.back (by omega))

/-- **A change keeps the order.** -/
theorem keepsOrder_carry? (change : Change α) : NodePath.KeepsOrder change.carry? := by
  cases change with
  | put path part => exact .below? (fun _ _ _ _ h ↦ by cases h) path
  | assign path value =>
    refine .below? (fun rest rest' other other' hrest hother hlex ↦ ?_) path
    split_ifs at hrest hother
    cases hrest
    cases hother
    exact hlex
  | insert parent index part =>
    refine .below? (.shift? fun i i' j j' hi hj hlt ↦ ?_) parent
    obtain rfl := Option.some.inj hi
    obtain rfl := Option.some.inj hj
    split_ifs <;> omega
  | remove parent index =>
    refine .below? (.shift? fun i i' j j' hi hj hlt ↦ ?_) parent
    rw [closeUp] at hi hj
    split_ifs at hi hj <;> cases hi <;> cases hj <;> omega

theorem remove_on_insert_on (parent : NodePath) (index : Nat) (part t : Tree α) :
    (remove parent index).on ((insert parent index part).on t) = t := by
  have hback : (Tree.alterChildren (·.eraseIdx index) ∘
      Tree.alterChildren (·.insertIdx index part) : Tree α → Tree α) = id := by
    funext s
    simp only [Function.comp_apply, Tree.alterChildren, Tree.value_node, Tree.children_node,
      List.eraseIdx_insertIdx_self, Tree.node_value_children, id_eq]
  rw [on, on, Tree.alterAt_alterAt, hback, Tree.alterAt_id]

end Change

/-! ## What a cursor does -/

namespace Cursor

theorem spot_replace (c : Cursor α) (t : Tree α) :
    (c.replace t).spot = ⟨(Change.put c.path t).on c.tree, c.path⟩ := by
  rw [Change.on, alterAt_path]
  rfl

theorem spot_modify (c : Cursor α) (f : α → α) :
    (c.modify f).spot = ⟨(Change.assign c.path (f c.value)).on c.tree, c.path⟩ := by
  obtain ⟨⟨value, parts⟩, crumbs⟩ := c
  rw [Change.on, alterAt_path]
  rfl

theorem spot_pushChild (c : Cursor α) (t : Tree α) :
    (c.pushChild t).spot = ⟨(Change.insert c.path c.focus.children.length t).on c.tree,
      c.path ++ [c.focus.children.length]⟩ := by
  rw [Change.on, alterAt_path, Tree.alterChildren, List.insertIdx_length_self, spot, pushChild,
    path_cons, tree_cons]
  rfl

theorem spot_insert [Variadic α] {c : Cursor α} {parent : NodePath} {index : Nat}
    (hpath : c.path = parent ++ [index]) (t : Tree α) :
    (c.insert t).spot =
      ⟨(Change.insert parent (index + 1) t).on c.tree, parent ++ [index + 1]⟩ := by
  have hact := congrArg Prod.snd (c.act_insert t)
  rw [Spot.act, spot, hpath, List.getLast?_concat, List.dropLast_concat] at hact
  exact hact

theorem spot_delete [Variadic α] {c : Cursor α} {parent : NodePath} {index : Nat}
    (hpath : c.path = parent ++ [index])
    (hvariadic : (c.tree.value? parent).any Variadic.isVariadic = true) :
    c.delete.spot = ⟨(Change.remove parent index).on c.tree, Spot.afterRemoval parent index
      ((⟨c.tree, parent⟩ : Spot α).children.length - 1)⟩ := by
  have hact := congrArg Prod.snd c.act_delete
  rw [Spot.act, spot, hpath, List.getLast?_concat, List.dropLast_concat] at hact
  dsimp only at hact
  rw [if_pos hvariadic] at hact
  exact hact

end Cursor

end FormulaEdit
