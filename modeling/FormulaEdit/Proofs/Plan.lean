import FormulaEdit.Proofs.Change
import FormulaEdit.Proofs.Coherence

/-!
# What an edit does to a formula

Edits are carried out at a cursor. What they come to can be said without one: an edit looks at the
node at its path, and at the list around it if there is one, and either leaves the formula alone or
makes one change at one place. This is its `Plan`, which is read off the formula and the path
(`Grammar.planned`).

Carrying out the plan is applying the edit, on every formula, of the right shape or not
(`Grammar.applyEdit_eq`). So all that holds of changes holds of edits: the nodes that an edit is not
about keep their values and their order, and only the elements after a place in a list move, by one
position.
-/

namespace FormulaEdit

/-! ## Plans -/

/-- What an edit comes to. -/
inductive Plan where
  /-- Leave the formula alone, and say why if the edit did not apply. -/
  | keep (miss : Option Miss)
  /-- Change the formula and go to a node. -/
  | make (change : Change Node) (focus : NodePath)
  deriving DecidableEq

namespace Plan

def on (t : FormulaTree) : Plan → FormulaTree
  | keep _ => t
  | make change _ => change.on t

def outcome (path : NodePath) : Plan → Outcome
  | keep miss => ⟨false, path, miss⟩
  | make _ focus => ⟨true, focus, none⟩

def carry? : Plan → NodePath → Option NodePath
  | keep _ => some
  | make change _ => change.carry?

def Shifts : Plan → NodePath → NodePath → Prop
  | keep _, _, _ => False
  | make change _, path, path' => change.Shifts path path'

def inapplicable (edit : Edit) (node : Node) : Plan :=
  keep (some (.notApplicable edit.description node.label))

end Plan

/-- What a plan for the node at a path leaves as it was. -/
structure Plan.KeepsRest (plan : Plan) (t : FormulaTree) (path : NodePath) : Prop where
  /-- Nodes that are carried keep their values. -/
  value : ∀ other other', plan.carry? other = some other' →
    (plan.on t).value? other' = t.value? other
  /-- Nodes that are carried keep their position, but for those after an insertion or a removal. -/
  position : ∀ other other', plan.carry? other = some other' →
    other' = other ∨ plan.Shifts other other'
  /-- Nodes that are carried keep their order. -/
  order : NodePath.KeepsOrder plan.carry?
  /-- All nodes are carried but some at the path or below. -/
  carried : ∀ other, plan.carry? other = none → path <+: other

/-- The list that the node at a path is an element of: where the list is, the position of the node
in it, and the kind of its elements. -/
def elementOf? (t : FormulaTree) (path : NodePath) : Option (NodePath × Nat × Kind) :=
  match path.getLast?, (t.value? path.dropLast).map Node.kind with
  | some index, some (.list element) => some (path.dropLast, index, element)
  | _, _ => none

/-- The plan for a text: an atom gets another text and another reason, or has them already. -/
def inputPlan (path : NodePath) (part : FormulaTree) (raw : String) : Plan :=
  match part.value.kind with
  | .atom type =>
    let (input, invalid) := Node.entry type raw
    if part.value.input = input ∧ part.value.flags.invalid = invalid then .keep none
    else .make (.assign path { part.value with input, flags := { part.value.flags with invalid } })
      path
  | _ => .keep none

def togglePlan (path : NodePath) (part : FormulaTree) : Plan :=
  let isOpen := !part.value.flags.isOpen
  .make (.assign path { part.value with flags := { part.value.flags with isOpen } }) path

/-- The plan for removing an element: go to the one after it, else to the one before it, else to the
list. -/
def removalPlan (t : FormulaTree) (path : NodePath) (part : FormulaTree) : Plan :=
  match elementOf? t path with
  | some (parent, index, _) =>
    .make (.remove parent index)
      (Spot.afterRemoval parent index ((⟨t, parent⟩ : Spot Node).children.length - 1))
  | none => .inapplicable .listRemove part.value

namespace Grammar

variable {g : Grammar}

/-- The plan for another operator: a new one with its defaults, open as the old one was. -/
def operatorPlan (g : Grammar) (path : NodePath) (part : FormulaTree) (name : String) :
    Except EditorError Plan :=
  match part.value.kind with
  | .operator current =>
    if current = name then .ok (.keep none)
    else if !g.has name then .ok (.keep (some (.unknownOperator name)))
    else if !path.isEmpty && !g.interchangeable current name then
      .ok (.keep (some (.categoryMismatch current name)))
    else
      (g.freshOperator name).map fun fresh ↦
        .make (.put path (.node (fresh.value.setOpen part.value.flags.isOpen) fresh.children)) path
  | _ => .ok (.inapplicable (.selectOperator name) part.value)

/-- The plan for another variant: a new one in place of the first part, or the first part if there
is none. -/
def variantPlan (g : Grammar) (path : NodePath) (part : FormulaTree) (selector : String) :
    Except EditorError Plan :=
  match part.value.kind with
  | .union variants =>
    match (resolveVariant? variants selector).bind fun index ↦ variants[index]?.map (index, ·) with
    | none => .ok (.keep (some (.unknownVariant selector)))
    | some (index, variant) =>
      if g.liveIn? variants part = some index then .ok (.keep none)
      else
        (g.freshKind variant).map fun fresh ↦
          match part.children with
          | [] => .make (.insert path 0 fresh) path
          | _ :: _ => .make (.put (path ++ [0]) fresh) path
  | _ => .ok (.inapplicable (.selectVariant selector) part.value)

/-- The plan for a new element: at the end of a list, else after an element. -/
def additionPlan (g : Grammar) (t : FormulaTree) (path : NodePath) (part : FormulaTree) :
    Except EditorError Plan :=
  match part.value.kind, elementOf? t path with
  | .list element, _ =>
    (g.freshKind element).map fun fresh ↦
      .make (.insert path part.children.length fresh) (path ++ [part.children.length])
  | _, some (parent, index, element) =>
    (g.freshKind element).map fun fresh ↦
      .make (.insert parent (index + 1) fresh) (parent ++ [index + 1])
  | _, none => .ok (.inapplicable .listAdd part.value)

/-- What an edit of a formula comes to. -/
def planned (g : Grammar) (t : FormulaTree) (event : EditEvent) : Except EditorError Plan :=
  match t.get? event.path with
  | none => .error (.invalidPath event.path)
  | some part =>
    match event.edit with
    | .selectOperator name => g.operatorPlan event.path part name
    | .selectVariant selector => g.variantPlan event.path part selector
    | .setInput raw => .ok (inputPlan event.path part raw)
    | .listAdd => g.additionPlan t event.path part
    | .listRemove => .ok (removalPlan t event.path part)
    | .toggleOpen => .ok (togglePlan event.path part)

end Grammar

/-! ## Edits carry out their plans -/

theorem elementOf?_eq_some_iff {t : FormulaTree} {path parent : NodePath} {index : Nat}
    {element : Kind} :
    elementOf? t path = some (parent, index, element) ↔
      path = parent ++ [index] ∧ (t.value? parent).map Node.kind = some (.list element) := by
  rw [elementOf?]
  constructor
  · intro h
    split at h
    · next last other hlast hkind =>
      cases h
      exact ⟨(List.dropLast_append_getLast? index hlast).symm, hkind⟩
    · cases h
  · rintro ⟨rfl, hkind⟩
    rw [List.getLast?_concat, List.dropLast_concat, hkind]

theorem exists_elementOf?_iff {c : Cursor Node} {element : Kind} :
    (∃ parent index, elementOf? c.tree c.path = some (parent, index, element)) ↔
      c.parent?.map Node.kind = some (.list element) := by
  constructor
  · rintro ⟨parent, index, helement⟩
    obtain ⟨hpath, hkind⟩ := elementOf?_eq_some_iff.mp helement
    obtain ⟨node, hnode, hlist⟩ := Option.map_eq_some_iff.mp hkind
    rw [Cursor.parent?_of_path hpath hnode, Option.map_some, hlist]
  · intro hkind
    obtain ⟨node, hnode, hlist⟩ := Option.map_eq_some_iff.mp hkind
    obtain ⟨parent, index, hpath, hvalue⟩ := Cursor.parent?_eq_some hnode
    refine ⟨parent, index, elementOf?_eq_some_iff.mpr ⟨hpath, ?_⟩⟩
    rw [hvalue, Option.map_some, hlist]

theorem Node.setInput_atom {node : Node} {type : Atom} (hkind : node.kind = .atom type)
    (raw : String) :
    node.setInput raw =
      { node with
        input := (entry type raw).1
        flags := { node.flags with invalid := (entry type raw).2 } } := by
  rw [setInput]
  simp only [hkind]

/-- The plan for a text is to give it to the node, unless that leaves the node as it is. -/
theorem inputPlan_eq (path : NodePath) (part : FormulaTree) (raw : String) :
    inputPlan path part raw =
      if part.value.setInput raw = part.value then .keep none
      else .make (.assign path (part.value.setInput raw)) path := by
  rw [inputPlan]
  split
  · next type hkind =>
    rw [Node.setInput_atom hkind]
    refine if_congr ?_ rfl rfl
    obtain ⟨kind, input, isOpen, invalid⟩ := part.value
    simp only [Node.mk.injEq, Flags.mk.injEq, true_and]
    exact and_congr eq_comm eq_comm
  · next hatom => rw [if_pos (Node.setInput_of_not_atom hatom raw)]

/-- The formula after a step and what the step did. -/
def EditStep.result (step : EditStep) : FormulaTree × Outcome := (step.cursor.tree, step.outcome)

def Plan.result (t : FormulaTree) (path : NodePath) (plan : Plan) : FormulaTree × Outcome :=
  (plan.on t, plan.outcome path)

theorem EditStep.result_done {c c' : Cursor Node} {change : Change Node} {focus : NodePath}
    (h : c'.spot = ⟨change.on c.tree, focus⟩) :
    (EditStep.done c').result = (Plan.make change focus).result c.tree c.path := by
  obtain ⟨htree, hpath⟩ := Spot.mk.inj h
  rw [result, outcome, done, Plan.result, Plan.on, Plan.outcome, htree, hpath]

namespace Grammar

variable {g : Grammar}

theorem selectOperator_result (c : Cursor Node) (name : String) :
    (g.selectOperator c name).map EditStep.result =
      (g.operatorPlan c.path c.focus name).map (Plan.result c.tree c.path) := by
  have hroot : c.path.isEmpty = c.isRoot := by simp [Cursor.path, Cursor.isRoot]
  rw [selectOperator, operatorPlan, hroot, Cursor.value]
  cases c.focus.value.kind with
  | operator current =>
    dsimp only
    split_ifs
    · rfl
    · rfl
    · rfl
    · cases g.freshOperator name with
      | error error => rfl
      | ok fresh =>
        obtain ⟨node, parts⟩ := fresh
        exact congrArg Except.ok (EditStep.result_done (c.spot_replace _))
  | atom type => rfl
  | union variants => rfl
  | list element => rfl

theorem spot_setVariant (c : Cursor Node) (part : FormulaTree) :
    (setVariant c part).spot =
      ⟨(match c.focus.children with
        | [] => Change.insert c.path 0 part
        | _ :: _ => Change.put (c.path ++ [0]) part).on c.tree, c.path⟩ := by
  obtain ⟨⟨union, parts⟩, crumbs⟩ := c
  cases parts with
  | nil =>
    rw [Tree.children_node, Change.on, Cursor.alterAt_path]
    rfl
  | cons live others =>
    rw [Tree.children_node, Change.on, Tree.alterAt_append, Cursor.alterAt_path]
    rfl

theorem selectVariant_result (c : Cursor Node) (selector : String) :
    (g.selectVariant c selector).map EditStep.result =
      (g.variantPlan c.path c.focus selector).map (Plan.result c.tree c.path) := by
  rw [selectVariant, variantPlan, Cursor.value]
  cases c.focus.value.kind with
  | union variants =>
    dsimp only
    cases (resolveVariant? variants selector).bind fun index ↦ variants[index]?.map (index, ·) with
    | none => rfl
    | some found =>
      dsimp only
      rw [liveIn?]
      split_ifs
      · rfl
      · cases g.freshKind found.2 with
        | error error => rfl
        | ok fresh =>
          have hspot := spot_setVariant c fresh
          dsimp only [Except.map]
          cases hparts : c.focus.children with
          | nil =>
            rw [hparts] at hspot
            exact congrArg Except.ok (EditStep.result_done hspot)
          | cons live others =>
            rw [hparts] at hspot
            exact congrArg Except.ok (EditStep.result_done hspot)
  | atom type => rfl
  | operator name => rfl
  | list element => rfl

theorem setInput_result (c : Cursor Node) (raw : String) :
    (setInput c raw).result = (inputPlan c.path c.focus raw).result c.tree c.path := by
  rw [setInput, Cursor.modify_value, Cursor.value, inputPlan_eq]
  split_ifs
  · rfl
  · exact EditStep.result_done (c.spot_modify _)

theorem listAdd_result (c : Cursor Node) :
    (g.listAdd c).map EditStep.result =
      (g.additionPlan c.tree c.path c.focus).map (Plan.result c.tree c.path) := by
  rw [listAdd, additionPlan, Cursor.value]
  split
  · next element hkind =>
    simp only [hkind]
    cases g.freshKind element with
    | error error => rfl
    | ok fresh => exact congrArg Except.ok (EditStep.result_done (c.spot_pushChild fresh))
  · next element hparent hkind =>
    obtain ⟨parent, index, helement⟩ := exists_elementOf?_iff.mpr hparent
    have hpath := (elementOf?_eq_some_iff.mp helement).1
    simp only [helement]
    cases g.freshKind element with
    | error error => rfl
    | ok fresh => exact congrArg Except.ok (EditStep.result_done (Cursor.spot_insert hpath fresh))
  · next hkind hparent =>
    -- the node is no list and in none
    have hnone : elementOf? c.tree c.path = none := by
      rw [Option.eq_none_iff_forall_ne_some]
      rintro ⟨parent, index, element⟩ helement
      exact hparent element (exists_elementOf?_iff.mp ⟨parent, index, helement⟩)
    simp only [hnone]
    rfl

theorem listRemove_result (c : Cursor Node) :
    (listRemove c).result = (removalPlan c.tree c.path c.focus).result c.tree c.path := by
  rw [listRemove, removalPlan]
  cases helement : elementOf? c.tree c.path with
  | none =>
    split
    · next element hparent =>
      obtain ⟨parent, index, hsome⟩ := exists_elementOf?_iff.mpr hparent
      rw [helement] at hsome
      cases hsome
    · rfl
  | some found =>
    obtain ⟨parent, index, element⟩ := found
    obtain ⟨hpath, hkind⟩ := elementOf?_eq_some_iff.mp helement
    obtain ⟨node, hnode, hlist⟩ := Option.map_eq_some_iff.mp hkind
    have hvariadic : (c.tree.value? parent).any Variadic.isVariadic = true := by
      simp [hnode, Variadic.isVariadic, hlist, Kind.isVariadic]
    simp only [exists_elementOf?_iff.mp ⟨parent, index, helement⟩]
    exact EditStep.result_done (Cursor.spot_delete hpath hvariadic)

/-- **An edit carries out its plan.** Both fail alike, and else lead to the same formula and report
the same. -/
theorem applyEdit_eq (g : Grammar) (t : FormulaTree) (event : EditEvent) :
    g.applyEdit t event = (g.planned t event).map (Plan.result t event.path) := by
  obtain ⟨path, edit⟩ := event
  rw [planned]
  cases hpart : t.get? path with
  | none => exact applyEdit_of_get?_eq_none hpart
  | some part =>
    -- from here on the tree, the path and the part are those of a cursor
    obtain ⟨c, rfl, rfl, rfl⟩ := Cursor.exists_of_get? hpart
    refine (applyEdit_path c edit).trans ?_
    cases edit with
    | selectOperator name => exact selectOperator_result c name
    | selectVariant selector => exact selectVariant_result c selector
    | setInput raw => exact congrArg Except.ok (setInput_result c raw)
    | listAdd => exact listAdd_result c
    | listRemove => exact congrArg Except.ok (listRemove_result c)
    | toggleOpen => exact congrArg Except.ok (EditStep.result_done (c.spot_modify _))

theorem applyEdit_eq_ok_iff {t t' : FormulaTree} {event : EditEvent} {outcome : Outcome} :
    g.applyEdit t event = .ok (t', outcome) ↔
      ∃ plan, g.planned t event = .ok plan ∧ t' = plan.on t ∧
        outcome = plan.outcome event.path := by
  rw [applyEdit_eq]
  cases g.planned t event with
  | error error => simp [Except.map]
  | ok plan => simp [Except.map, Plan.result, eq_comm]

/-! ## The changes that edits make -/

/-- What an edit changes, when it does, and where it leads. -/
inductive Plans (g : Grammar) (t : FormulaTree) : EditEvent → Change Node → NodePath → Prop
  /-- Another operator. -/
  | operator {path : NodePath} {part fresh : FormulaTree} {current name : String}
      (here : t.get? path = some part) (kind : part.value.kind = .operator current)
      (other : current ≠ name) (built : g.freshOperator name = .ok fresh) :
      Plans g t ⟨path, .selectOperator name⟩
        (.put path (.node (fresh.value.setOpen part.value.flags.isOpen) fresh.children)) path
  /-- Another variant in place of the first part of a union. -/
  | variant {path : NodePath} {part fresh : FormulaTree} {variants : List Kind}
      {selector : String} {index : Nat} {variant : Kind} (here : t.get? path = some part)
      (kind : part.value.kind = .union variants) (listed : variants[index]? = some variant)
      (not_live : g.liveIn? variants part ≠ some index)
      (built : g.freshKind variant = .ok fresh) (filled : part.children ≠ []) :
      Plans g t ⟨path, .selectVariant selector⟩ (.put (path ++ [0]) fresh) path
  /-- A variant where a union has no part. -/
  | firstVariant {path : NodePath} {part fresh : FormulaTree} {variants : List Kind}
      {selector : String} {variant : Kind} (here : t.get? path = some part)
      (kind : part.value.kind = .union variants) (listed : variant ∈ variants)
      (built : g.freshKind variant = .ok fresh) (empty : part.children = []) :
      Plans g t ⟨path, .selectVariant selector⟩ (.insert path 0 fresh) path
  /-- Another text. -/
  | input {path : NodePath} {part : FormulaTree} {raw : String} (here : t.get? path = some part)
      (other : part.value.setInput raw ≠ part.value) :
      Plans g t ⟨path, .setInput raw⟩ (.assign path (part.value.setInput raw)) path
  /-- Folding or unfolding. -/
  | toggle {path : NodePath} {part : FormulaTree} (here : t.get? path = some part) :
      Plans g t ⟨path, .toggleOpen⟩ (.assign path part.value.toggle) path
  /-- An element at the end of a list. -/
  | push {path : NodePath} {part fresh : FormulaTree} {element : Kind}
      (here : t.get? path = some part) (list : part.value.kind = .list element)
      (built : g.freshKind element = .ok fresh) :
      Plans g t ⟨path, .listAdd⟩ (.insert path part.children.length fresh)
        (path ++ [part.children.length])
  /-- An element after another one that is no list itself. -/
  | insert {parent : NodePath} {index : Nat} {part fresh : FormulaTree} {element : Kind}
      (here : t.get? (parent ++ [index]) = some part)
      (no_list : ∀ kind, part.value.kind ≠ .list kind)
      (list : (t.value? parent).map Node.kind = some (.list element))
      (built : g.freshKind element = .ok fresh) :
      Plans g t ⟨parent ++ [index], .listAdd⟩ (.insert parent (index + 1) fresh)
        (parent ++ [index + 1])
  /-- One element less. -/
  | remove {parent : NodePath} {index : Nat} {part : FormulaTree} {element : Kind}
      (here : t.get? (parent ++ [index]) = some part)
      (list : (t.value? parent).map Node.kind = some (.list element)) :
      Plans g t ⟨parent ++ [index], .listRemove⟩ (.remove parent index)
        (Spot.afterRemoval parent index ((⟨t, parent⟩ : Spot Node).children.length - 1))

/-- **What a plan can change.** -/
theorem plans_of_planned {t : FormulaTree} {event : EditEvent} {change : Change Node}
    {focus : NodePath} (h : g.planned t event = .ok (.make change focus)) :
    g.Plans t event change focus := by
  -- in each branch of a plan, either nothing is made or the branch is one of the cases
  obtain ⟨path, edit⟩ := event
  rw [planned] at h
  split at h
  · cases h
  · next part hpart =>
    dsimp only at hpart h
    cases edit with
    | selectOperator name =>
      dsimp only [operatorPlan] at h
      split at h
      · next current hkind =>
        split_ifs at h with hsame
        · cases h
        · cases h
        · cases h
        · obtain ⟨fresh, hfresh, hmake⟩ := map_eq_ok h
          cases hmake
          exact .operator hpart hkind hsame hfresh
      · cases h
    | selectVariant selector =>
      dsimp only [variantPlan] at h
      split at h
      · next variants hkind =>
        split at h
        · cases h
        · next index variant hindex =>
          split_ifs at h with hlive
          · cases h
          · obtain ⟨fresh, hfresh, hmake⟩ := map_eq_ok h
            obtain ⟨i, _, hlisted⟩ := Option.bind_eq_some_iff.mp hindex
            obtain ⟨v, hv, heq⟩ := Option.map_eq_some_iff.mp hlisted
            obtain ⟨rfl, rfl⟩ := Prod.mk.inj heq
            split at hmake
            · next hempty =>
              cases hmake
              exact .firstVariant hpart hkind (List.mem_of_getElem? hv) hfresh hempty
            · next live others hfilled =>
              cases hmake
              exact .variant hpart hkind hv hlive hfresh (by simp [hfilled])
      · cases h
    | setInput raw =>
      dsimp only at h
      rw [inputPlan_eq] at h
      split_ifs at h with hsame
      · cases h
      · cases h
        exact .input hpart hsame
    | listAdd =>
      dsimp only [additionPlan] at h
      split at h
      · next element hkind =>
        obtain ⟨fresh, hfresh, hmake⟩ := map_eq_ok h
        cases hmake
        exact .push hpart hkind hfresh
      · next parent index element helement hno =>
        obtain ⟨fresh, hfresh, hmake⟩ := map_eq_ok h
        cases hmake
        obtain ⟨rfl, hlist⟩ := elementOf?_eq_some_iff.mp helement
        exact .insert hpart hno hlist hfresh
      · cases h
    | listRemove =>
      dsimp only [removalPlan] at h
      split at h
      · next parent index element helement =>
        cases h
        obtain ⟨rfl, hlist⟩ := elementOf?_eq_some_iff.mp helement
        exact .remove hpart hlist
      · cases h
    | toggleOpen =>
      cases h
      exact .toggle hpart

/-- No node is replaced, assigned to or removed but at the path of the edit or below. -/
theorem Plans.prefix_site {t : FormulaTree} {event : EditEvent} {change : Change Node}
    {focus site : NodePath} (h : g.Plans t event change focus) (hsite : change.site? = some site) :
    event.path <+: site := by
  cases h with
  | operator | input | toggle | remove =>
    cases hsite
    exact List.prefix_refl _
  | variant =>
    cases hsite
    exact List.prefix_append _ _
  | firstVariant | push | insert => cases hsite

theorem exists_get?_of_planned {t : FormulaTree} {event : EditEvent} {plan : Plan}
    (h : g.planned t event = .ok plan) :
    (plan.on t).get? (plan.outcome event.path).focus ≠ none := by
  have happly : g.applyEdit t event = .ok (plan.on t, plan.outcome event.path) :=
    applyEdit_eq_ok_iff.mpr ⟨plan, h, rfl, rfl⟩
  -- the focus is where the cursor was left
  obtain ⟨c, step, _, _, htree, hfocus⟩ := applyEdit_eq_ok happly
  rw [htree, hfocus, EditStep.outcome, Cursor.get?_path]
  simp

theorem keepsRest_of_planned {t : FormulaTree} {event : EditEvent} {plan : Plan}
    (h : g.planned t event = .ok plan) : plan.KeepsRest t event.path := by
  cases plan with
  | keep miss =>
    refine ⟨fun other other' hcarry ↦ ?_, fun other other' hcarry ↦ ?_,
      fun _ _ _ _ hpath hother hlex ↦ ?_, fun _ hcarry ↦ ?_⟩
    · cases hcarry
      rfl
    · exact Or.inl (Option.some.inj hcarry).symm
    · cases hpath
      cases hother
      exact hlex
    · cases hcarry
  | make change focus =>
    refine ⟨fun other other' hcarry ↦ Change.value?_on hcarry t,
      fun other other' hcarry ↦ Change.shifts_of_carry? hcarry, change.keepsOrder_carry?,
      fun other hcarry ↦ ?_⟩
    obtain ⟨site, hsite, hother⟩ := Change.exists_site?_of_carry?_eq_none hcarry
    exact ((plans_of_planned h).prefix_site hsite).trans hother

/-- **What an edit does to a formula, and what it leaves alone.** For every grammar and every
formula, of the right shape or not, an edit carries out its plan. Each of the other nodes keeps its
value and its position, or moves by one position if it comes after an insertion or a removal, and
all are in the same order as before. The node in focus exists in the new formula. -/
theorem applyEdit_carries_out_plan (g : Grammar) (t : FormulaTree) (event : EditEvent) :
    g.applyEdit t event =
        (g.planned t event).map (fun plan ↦ (plan.on t, plan.outcome event.path)) ∧
      ∀ plan, g.planned t event = .ok plan → plan.KeepsRest t event.path ∧
        (plan.on t).get? (plan.outcome event.path).focus ≠ none :=
  ⟨applyEdit_eq g t event, fun _ h ↦ ⟨keepsRest_of_planned h, exists_get?_of_planned h⟩⟩

/-- In a list of lists an element goes to the end of the inner list, and one after the other atoms
goes between them. -/
theorem applyEdit_carries_out_plan_nested :
    let element := fun text ↦ (.leaf (.ofAtom .bool text) : FormulaTree)
    let inner := fun parts ↦ (.node (.plain (.list (.atom .bool))) parts : FormulaTree)
    let t := .node (.plain (.list (.list (.atom .bool))))
      [inner [element "true", element "maybe"], inner []]
    let plan := .make (.insert [0] 1 (element "false")) [0, 1]
    empty.planned t ⟨[0, 0], .listAdd⟩ = .ok plan ∧
      empty.applyEdit t ⟨[0, 0], .listAdd⟩ = .ok
        (.node t.value [inner [element "true", element "false", element "maybe"], inner []],
          ⟨true, [0, 1], none⟩) ∧
      plan.carry? [0, 1] = some [0, 2] ∧
      (plan.on t).value? [0, 2] = some (.ofAtom .bool "maybe") ∧
      empty.applyEdit t ⟨[1], .listAdd⟩ = .ok
        (.node t.value [inner [element "true", element "maybe"], inner [element "false"]],
          ⟨true, [1, 0], none⟩) := by
  intro element inner t plan
  have hplan : empty.planned t ⟨[0, 0], .listAdd⟩ = .ok plan := by decide +kernel
  have hcarry : plan.carry? [0, 1] = some [0, 2] := by decide +kernel
  obtain ⟨hresult, hrest⟩ := applyEdit_carries_out_plan empty t ⟨[0, 0], .listAdd⟩
  refine ⟨hplan, ?_, hcarry, ?_, ?_⟩
  · rw [hresult, hplan]
    decide +kernel
  · rw [(hrest plan hplan).1.value [0, 1] [0, 2] hcarry]
    decide +kernel
  · rw [(applyEdit_carries_out_plan empty t ⟨[1], .listAdd⟩).1]
    decide +kernel

end Grammar

end FormulaEdit
