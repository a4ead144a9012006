import FormulaEdit.Proofs.Plan

/-!
# Edits of separate parts

Two parts of a formula are separate if neither contains the other. An edit that reaches no further
than the part at its path does not notice what happens in a separate part, and both edits can be
made in either order.

Such edits are all but those that add or remove a sibling (`EditEvent.Inward`). Their plan depends
on the part at the path alone (`Grammar.planned_congr`) and is a change of this part
(`Grammar.Plans.exists_alterAt`). What is left is a fact about trees: changes at paths that part
from each other commute, and neither is felt at the other path.
-/

namespace FormulaEdit

variable {α : Type}

/-! ## Separate parts of a tree -/

namespace NodePath

/-- Neither path leads to the node of the other or to a node above it. -/
def Apart (path other : NodePath) : Prop := ¬path <+: other ∧ ¬other <+: path

instance (path other : NodePath) : Decidable (Apart path other) :=
  inferInstanceAs (Decidable (_ ∧ _))

theorem Apart.symm {path other : NodePath} (h : Apart path other) : Apart other path := ⟨h.2, h.1⟩

theorem not_apart_nil (path : NodePath) : ¬Apart [] path := fun h ↦ h.1 List.nil_prefix

theorem Apart.of_cons {index : Nat} {path other : NodePath}
    (h : Apart (index :: path) (index :: other)) : Apart path other := by
  simpa [Apart, List.cons_prefix_cons] using h

end NodePath

namespace Tree

theorem get?_alterAt_of_apart {f : Tree α → Tree α} {path other : NodePath}
    (h : path.Apart other) (t : Tree α) : (t.alterAt f path).get? other = t.get? other := by
  induction path generalizing other t with
  | nil => exact absurd h (NodePath.not_apart_nil other)
  | cons index path ih =>
    cases other with
    | nil => exact absurd h.symm (NodePath.not_apart_nil _)
    | cons index' other =>
      rw [alterAt, get?_cons, get?_cons, children_node, List.getElem?_modify]
      cases t.children[index']? with
      | none => rfl
      | some child =>
        by_cases hindex : index = index'
        · subst hindex
          simpa using ih h.of_cons child
        · simp [hindex]

/-- **Changes of separate parts commute.** -/
theorem alterAt_comm {f f' : Tree α → Tree α} {path other : NodePath} (h : path.Apart other)
    (t : Tree α) :
    (t.alterAt f path).alterAt f' other = (t.alterAt f' other).alterAt f path := by
  induction path generalizing other t with
  | nil => exact absurd h (NodePath.not_apart_nil other)
  | cons index path ih =>
    cases other with
    | nil => exact absurd h.symm (NodePath.not_apart_nil _)
    | cons index' other =>
      simp only [alterAt, value_node, children_node]
      by_cases hindex : index = index'
      · subst hindex
        have hbelow : alterAt f' other ∘ alterAt f path = alterAt f path ∘ alterAt f' other :=
          funext (ih h.of_cons)
        rw [List.modify_modify_eq, List.modify_modify_eq, hbelow]
      · rw [List.modify_modify_ne _ _ _ hindex]

end Tree

/-! ## Edits that reach no further than their part -/

/-- An edit that leaves the siblings of its node alone. An element may be added only to the list at
the path itself. -/
def EditEvent.Inward (t : FormulaTree) (event : EditEvent) : Prop :=
  match event.edit with
  | .listAdd => ∃ part element, t.get? event.path = some part ∧ part.value.kind = .list element
  | .listRemove => False
  | _ => True

namespace Grammar

variable {g : Grammar} {t t' : FormulaTree} {event : EditEvent}

/-- The formula after an edit. An edit that fails leaves it as it is. -/
def edited (g : Grammar) (t : FormulaTree) (event : EditEvent) : FormulaTree :=
  match g.applyEdit t event with
  | .ok (t', _) => t'
  | .error _ => t

def response (g : Grammar) (t : FormulaTree) (event : EditEvent) : Except EditorError Outcome :=
  (g.applyEdit t event).map Prod.snd

/-- The plan depends on the part at the path alone. -/
theorem planned_congr (h : event.Inward t) (hsame : t'.get? event.path = t.get? event.path) :
    g.planned t' event = g.planned t event := by
  obtain ⟨path, edit⟩ := event
  rw [planned, planned, hsame]
  cases edit with
  | listAdd =>
    obtain ⟨part, element, hpart, hlist⟩ := h
    dsimp only at hpart
    simp only [hpart, additionPlan, hlist]
  | listRemove => exact absurd h id
  | selectOperator name => rfl
  | selectVariant selector => rfl
  | setInput raw => rfl
  | toggleOpen => rfl

theorem Plans.exists_alterAt {change : Change Node} {focus : NodePath}
    (h : g.Plans t event change focus) (hinward : event.Inward t) :
    ∃ f, ∀ t', change.on t' = t'.alterAt f event.path := by
  cases h with
  | operator => exact ⟨_, fun _ ↦ rfl⟩
  | variant =>
    -- the first part of the union is a part of the union
    exact ⟨_, fun t' ↦ congrFun (Tree.alterAt_append _ _ _) t'⟩
  | firstVariant => exact ⟨_, fun _ ↦ rfl⟩
  | input => exact ⟨_, fun _ ↦ rfl⟩
  | toggle => exact ⟨_, fun _ ↦ rfl⟩
  | push => exact ⟨_, fun _ ↦ rfl⟩
  | insert here no_list =>
    -- the sibling of an element is added only where the element is no list
    obtain ⟨part, element, hpart, hlist⟩ := hinward
    obtain rfl := Option.some.inj (here.symm.trans hpart)
    exact absurd hlist (no_list element)
  | remove => exact absurd hinward id

/-- **An inward edit is a change of the part at its path**, the same in every formula with this
part there. -/
theorem exists_edited_eq_alterAt (h : event.Inward t) :
    ∃ f, ∀ t', t'.get? event.path = t.get? event.path →
      g.edited t' event = t'.alterAt f event.path ∧ g.response t' event = g.response t event := by
  have hresponse : ∀ t', t'.get? event.path = t.get? event.path →
      g.response t' event = g.response t event := by
    intro t' hsame
    rw [response, response, applyEdit_eq, applyEdit_eq, planned_congr h hsame]
    cases g.planned t event <;> rfl
  cases hplan : g.planned t event with
  | error error =>
    refine ⟨id, fun t' hsame ↦ ⟨?_, hresponse t' hsame⟩⟩
    rw [edited, applyEdit_eq, planned_congr h hsame, hplan, Tree.alterAt_id]
    rfl
  | ok plan =>
    obtain ⟨f, hf⟩ : ∃ f, ∀ t', plan.on t' = t'.alterAt f event.path := by
      cases plan with
      | keep miss => exact ⟨id, fun t' ↦ (Tree.alterAt_id _ t').symm⟩
      | make change focus => exact (plans_of_planned hplan).exists_alterAt h
    refine ⟨f, fun t' hsame ↦ ⟨?_, hresponse t' hsame⟩⟩
    rw [edited, applyEdit_eq, planned_congr h hsame, hplan, ← hf]
    rfl

/-- **Edits of separate parts commute.** Whatever the grammar and the formula, two edits that reach
no further than the parts at their paths, neither of which contains the other, lead to the same
formula in both orders. Each of them reports the same, or fails in the same way, before and after
the other. -/
theorem edited_comm (g : Grammar) (t : FormulaTree) {first second : EditEvent}
    (hapart : first.path.Apart second.path) (hfirst : first.Inward t) (hsecond : second.Inward t) :
    g.edited (g.edited t first) second = g.edited (g.edited t second) first ∧
      g.response (g.edited t first) second = g.response t second ∧
      g.response (g.edited t second) first = g.response t first := by
  obtain ⟨f, hf⟩ := exists_edited_eq_alterAt (g := g) hfirst
  obtain ⟨f', hf'⟩ := exists_edited_eq_alterAt (g := g) hsecond
  have hafter := hf' (t.alterAt f first.path) (Tree.get?_alterAt_of_apart hapart t)
  have hbefore := hf (t.alterAt f' second.path) (Tree.get?_alterAt_of_apart hapart.symm t)
  rw [(hf t rfl).1, (hf' t rfl).1]
  exact ⟨by rw [hafter.1, hbefore.1, Tree.alterAt_comm hapart], hafter.2, hbefore.2⟩

theorem edited_comm_logic :
    let g := (ofJson Editor.logic).2
    let flag := fun text ↦ (.node (.plain (.operator "flag")) [.leaf (.ofAtom .bool text)])
    let all := fun parts ↦ (.node (.plain (.operator "all"))
      [.node (.plain (.list (.operator "flag"))) parts] : FormulaTree)
    let t := all [flag "true", all []]
    let first : EditEvent := ⟨[0, 0], .selectOperator "all"⟩
    let second : EditEvent := ⟨[0, 1, 0], .listAdd⟩
    first.path.Apart second.path ∧ first.Inward t ∧ second.Inward t ∧
      g.edited (g.edited t second) first = all [all [], all [flag "false"]] ∧
      g.edited (g.edited t first) second = all [all [], all [flag "false"]] ∧
      g.response (g.edited t first) second = .ok ⟨true, [0, 1, 0, 0], none⟩ ∧
      g.response (g.edited t second) first = .ok ⟨true, [0, 0], none⟩ := by
  intro g flag all t first second
  have hapart : first.path.Apart second.path := by decide
  have hsecond : second.Inward t := ⟨_, _, rfl, rfl⟩
  have hboth : g.edited (g.edited t second) first = all [all [], all [flag "false"]] := by
    decide +kernel
  obtain ⟨hsame, hafter, hbefore⟩ := edited_comm g t hapart (trivial : first.Inward t) hsecond
  refine ⟨hapart, trivial, hsecond, hboth, hsame.trans hboth, hafter.trans ?_, hbefore.trans ?_⟩
  · decide +kernel
  · decide +kernel

end Grammar

end FormulaEdit
