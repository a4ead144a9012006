import FormulaEdit.Edit.Apply
import FormulaEdit.Proofs.Build
import FormulaEdit.Proofs.Cursor

/-!
# Edits keep the shape

An edit changes the part in focus and at most the nearest crumb. Whether the whole formula still has
the right shape therefore splits in two: the focus has the right shape, and its surroundings take a
part of its kind. The surroundings are `Framed`; they are checked level by level up to the root,
where an operator has to stand.

Only a change of the kind in focus is felt by the surroundings. Below the root such a change happens
when an operator is replaced, and then the new kind fits the old one, which is all the surroundings
ask for (`Framed.swap`).
-/

namespace FormulaEdit

def EditStep.Stays (step : EditStep) (c : Cursor Node) : Prop :=
  step.cursor = c ∧ step.changed = false

@[simp] theorem Node.setInput_kind (node : Node) (raw : String) :
    (node.setInput raw).kind = node.kind := by
  unfold Node.setInput
  split <;> rfl

namespace Grammar

variable {g : Grammar}

/-- A formula of the right shape with an operator at its root. -/
def Formed (g : Grammar) (t : FormulaTree) : Prop :=
  g.Shaped t ∧ ∃ name, t.value.kind = .operator name

/-- Surroundings of the right shape in which a part of the given kind may stand. -/
def Framed (g : Grammar) : Kind → List (Crumb Node) → Prop
  | kind, [] => ∃ name, kind = .operator name
  | kind, crumb :: crumbs =>
    g.Accepts crumb.parent.kind (rootKinds crumb.before ++ kind :: rootKinds crumb.after) ∧
      (∀ part ∈ crumb.before ++ crumb.after, g.Shaped part) ∧ Framed g crumb.parent.kind crumbs

/-- A cursor in a formula of the right shape. -/
def Placed (g : Grammar) (c : Cursor Node) : Prop :=
  g.Shaped c.focus ∧ g.Framed c.focus.value.kind c.crumbs

theorem shaped_close_iff {crumb : Crumb Node} {t : FormulaTree} :
    g.Shaped (crumb.close t) ↔
      g.Accepts crumb.parent.kind
          (rootKinds crumb.before ++ t.value.kind :: rootKinds crumb.after) ∧
        (∀ part ∈ crumb.before ++ crumb.after, g.Shaped part) ∧ g.Shaped t := by
  rw [Crumb.close, shaped_node_iff, rootKinds_append, rootKinds_cons]
  simp only [List.mem_append, List.mem_cons]
  constructor
  · rintro ⟨haccepts, hparts⟩
    exact ⟨haccepts, fun part h ↦ hparts part (by tauto), hparts t (by tauto)⟩
  · rintro ⟨haccepts, hparts, ht⟩
    refine ⟨haccepts, fun part h ↦ ?_⟩
    rcases h with h | rfl | h
    · exact hparts part (Or.inl h)
    · exact ht
    · exact hparts part (Or.inr h)

/-- **The formula splits at a cursor** into the focus and its surroundings. -/
theorem formed_tree_iff {c : Cursor Node} : g.Formed c.tree ↔ g.Placed c := by
  obtain ⟨t, crumbs⟩ := c
  induction crumbs generalizing t with
  | nil => rfl
  | cons crumb crumbs ih =>
    have hkind : (crumb.close t).value.kind = crumb.parent.kind := rfl
    rw [Cursor.tree_cons, ih, Placed, Placed, shaped_close_iff, hkind, Framed]
    tauto

/-! ## What the surroundings ask for -/

theorem forall₂_swap {α β : Type} {R : α → β → Prop} {xs : List α} {before after : List β}
    {y z : β} (h : List.Forall₂ R xs (before ++ y :: after)) (hyz : ∀ x, R x y → R x z) :
    List.Forall₂ R xs (before ++ z :: after) := by
  induction before generalizing xs with
  | nil =>
    obtain ⟨x, xs, hx, hxs, rfl⟩ := List.forall₂_cons_right_iff.mp h
    exact .cons (hyz x hx) hxs
  | cons b before ih =>
    obtain ⟨x, xs, hx, hxs, rfl⟩ := List.forall₂_cons_right_iff.mp h
    exact .cons hx (ih hxs)

theorem Accepts.swap {kind part other : Kind} {before after : List Kind}
    (h : g.Accepts kind (before ++ part :: after)) (hfits : g.fits part other = true) :
    g.Accepts kind (before ++ other :: after) := by
  cases kind with
  | atom type => simp [Accepts] at h
  | operator name =>
    obtain ⟨op, hop, hargs⟩ := h
    exact ⟨op, hop, forall₂_swap hargs fun arg harg ↦ fits_trans harg hfits⟩
  | union variants =>
    obtain ⟨live, hlive, variant, hv, hvfits⟩ := h
    obtain ⟨rfl, rfl, rfl⟩ : before = [] ∧ part = live ∧ after = [] := by
      simpa [List.append_eq_singleton_iff] using hlive
    exact ⟨other, rfl, variant, hv, fits_trans hvfits hfits⟩
  | list element =>
    intro found hfound
    rcases List.mem_append.mp hfound with hmem | hmem
    · exact h found (List.mem_append_left _ hmem)
    · rcases List.mem_cons.mp hmem with rfl | hmem
      · exact fits_trans (h part (by simp)) hfits
      · exact h found (by simp [hmem])

theorem Framed.swap {part other : Kind} {crumbs : List (Crumb Node)} (h : g.Framed part crumbs)
    (hfits : g.fits part other = true) : g.Framed other crumbs := by
  cases crumbs with
  | nil =>
    rcases fits_cases hfits with rfl | hother
    · exact h
    · exact hother
  | cons crumb crumbs => exact ⟨h.1.swap hfits, h.2⟩

theorem Shaped.modify {f : Node → Node} {t : FormulaTree} (h : g.Shaped t)
    (hkind : (f t.value).kind = t.value.kind) : g.Shaped (t.modify f) := by
  obtain ⟨node, parts⟩ := t
  obtain ⟨haccepts, hparts⟩ := shaped_node_iff.mp h
  exact .node (hkind ▸ haccepts) hparts

theorem Placed.modify {f : Node → Node} {c : Cursor Node} (h : g.Placed c)
    (hkind : (f c.value).kind = c.value.kind) : g.Placed (c.modify f) := by
  refine ⟨h.1.modify hkind, ?_⟩
  have hroot : (c.modify f).focus.value.kind = c.focus.value.kind := by
    obtain ⟨⟨node, parts⟩, crumbs⟩ := c
    exact hkind
  rw [hroot]
  exact h.2

/-! ## New parts -/

theorem freshKind_eq_ok_iff {kind : Kind} {t : FormulaTree} :
    g.freshKind kind = .ok t ↔ g.build maxDepth kind = .ok t := by
  unfold freshKind
  cases g.build maxDepth kind <;> simp [Except.mapError]

theorem freshOperator_eq_ok_iff {name : String} {t : FormulaTree} :
    g.freshOperator name = .ok t ↔
      g.has name = true ∧ g.build maxDepth (.operator name) = .ok t := by
  unfold freshOperator buildOperator
  cases g.has name
  · simp [Except.mapError]
  · cases g.build maxDepth (.operator name) <;> simp [Except.mapError]

theorem freshOperator_formed {name : String} {t : FormulaTree} (h : g.freshOperator name = .ok t) :
    g.Formed t :=
  have hbuild := (freshOperator_eq_ok_iff.mp h).2
  ⟨buildWithin_shaped hbuild, name, buildWithin_kind hbuild⟩

/-! ## What each edit can do

An edit leaves the cursor where it is and reports no change, or it does the one thing it is there
for. -/

theorem selectOperator_cases {c : Cursor Node} {name : String} {step : EditStep}
    (h : g.selectOperator c name = .ok step) :
    step.Stays c ∨ ∃ current fresh, c.value.kind = .operator current ∧
      (c.crumbs = [] ∨ g.interchangeable current name = true) ∧ g.freshOperator name = .ok fresh ∧
      step = .done (c.replace (fresh.modify fun node ↦
        { node with flags := { node.flags with isOpen := c.value.flags.isOpen } })) := by
  unfold selectOperator at h
  split at h
  · rename_i current hkind
    split_ifs at h with hsame hhas hmatch
    · cases h
      exact Or.inl ⟨rfl, rfl⟩
    · cases h
      exact Or.inl ⟨rfl, rfl⟩
    · cases h
      exact Or.inl ⟨rfl, rfl⟩
    · split at h
      · rename_i fresh hfresh
        cases h
        refine Or.inr ⟨current, fresh, hkind, ?_, hfresh, rfl⟩
        rw [Bool.and_eq_true, not_and_or] at hmatch
        simpa [Cursor.isRoot] using hmatch
      · cases h
  · cases h
    exact Or.inl ⟨rfl, rfl⟩

theorem selectVariant_cases {c : Cursor Node} {selector : String} {step : EditStep}
    (h : g.selectVariant c selector = .ok step) :
    step.Stays c ∨ ∃ variants variant fresh, c.value.kind = .union variants ∧
      variant ∈ variants ∧ g.freshKind variant = .ok fresh ∧
      step = .done (setVariant c fresh) := by
  unfold selectVariant at h
  split at h
  · rename_i variants hkind
    split at h
    · cases h
      exact Or.inl ⟨rfl, rfl⟩
    · rename_i index variant hindex
      dsimp only at h
      split_ifs at h with hlive
      · cases h
        exact Or.inl ⟨rfl, rfl⟩
      · split at h
        · rename_i fresh hfresh
          cases h
          refine Or.inr ⟨variants, variant, fresh, hkind, ?_, hfresh, rfl⟩
          obtain ⟨i, _, hi⟩ := Option.bind_eq_some_iff.mp hindex
          obtain ⟨v, hv, heq⟩ := Option.map_eq_some_iff.mp hi
          obtain ⟨rfl, rfl⟩ := Prod.mk.inj heq
          exact List.mem_of_getElem? hv
        · cases h
  · cases h
    exact Or.inl ⟨rfl, rfl⟩

theorem setInput_cases (c : Cursor Node) (raw : String) :
    (setInput c raw).Stays c ∨ setInput c raw = .done (c.modify (·.setInput raw)) := by
  unfold setInput
  dsimp only
  split_ifs with h
  · exact Or.inl ⟨rfl, rfl⟩
  · exact Or.inr rfl

theorem listAdd_cases {c : Cursor Node} {step : EditStep} (h : g.listAdd c = .ok step) :
    step.Stays c ∨ ∃ element fresh, g.freshKind element = .ok fresh ∧
      (c.value.kind = .list element ∧ step = .done (c.pushChild fresh) ∨
        c.parent?.map Node.kind = some (.list element) ∧ step = .done (c.insert fresh)) := by
  unfold listAdd at h
  split at h
  · rename_i element hkind
    split at h
    · rename_i fresh hfresh
      cases h
      exact Or.inr ⟨element, fresh, hfresh, Or.inl ⟨hkind, rfl⟩⟩
    · cases h
  · rename_i element hparent _
    split at h
    · rename_i fresh hfresh
      cases h
      exact Or.inr ⟨element, fresh, hfresh, Or.inr ⟨hparent, rfl⟩⟩
    · cases h
  · cases h
    exact Or.inl ⟨rfl, rfl⟩

theorem listRemove_cases (c : Cursor Node) :
    (listRemove c).Stays c ∨ ∃ element,
      c.parent?.map Node.kind = some (.list element) ∧ listRemove c = .done c.delete := by
  unfold listRemove
  split
  · rename_i element hparent
    exact Or.inr ⟨element, hparent, rfl⟩
  · exact Or.inl ⟨rfl, rfl⟩

/-! ## Each edit keeps the shape -/

theorem Placed.of_stays {c : Cursor Node} {step : EditStep} (h : g.Placed c)
    (hstays : step.Stays c) : g.Placed step.cursor := by
  rw [hstays.1]
  exact h

theorem Placed.selectOperator {c : Cursor Node} {name : String} {step : EditStep} (h : g.Placed c)
    (hstep : g.selectOperator c name = .ok step) : g.Placed step.cursor := by
  rcases selectOperator_cases hstep with hstays | ⟨current, fresh, hkind, hplace, hfresh, rfl⟩
  · exact h.of_stays hstays
  · have hbuild := (freshOperator_eq_ok_iff.mp hfresh).2
    have hroot : fresh.value.kind = .operator name := buildWithin_kind hbuild
    have hframed : g.Framed (.operator name) c.crumbs := by
      rcases hplace with hcrumbs | hinter
      · rw [hcrumbs]
        exact ⟨name, rfl⟩
      · exact h.2.swap (fits_iff.mpr (Or.inr ⟨current, name, hkind, rfl, hinter⟩))
    refine ⟨(buildWithin_shaped hbuild).modify rfl, ?_⟩
    obtain ⟨node, parts⟩ := fresh
    rw [← hroot] at hframed
    exact hframed

theorem exists_live_of_shaped {node : Node} {parts : List FormulaTree} {variants : List Kind}
    (hkind : node.kind = .union variants) (h : g.Shaped (.node node parts)) :
    ∃ live, parts = [live] := by
  have haccepts := (shaped_node_iff.mp h).1
  rw [hkind] at haccepts
  obtain ⟨live, hlive, _⟩ := haccepts
  obtain ⟨part, rfl, _⟩ := List.map_eq_singleton_iff.mp hlive
  exact ⟨part, rfl⟩

theorem Placed.selectVariant {c : Cursor Node} {selector : String} {step : EditStep}
    (h : g.Placed c) (hstep : g.selectVariant c selector = .ok step) : g.Placed step.cursor := by
  rcases selectVariant_cases hstep with hstays | ⟨variants, variant, fresh, hkind, hv, hfresh, rfl⟩
  · exact h.of_stays hstays
  · have hbuild := freshKind_eq_ok_iff.mp hfresh
    have hroot : fresh.value.kind = variant := buildWithin_kind hbuild
    obtain ⟨⟨node, parts⟩, crumbs⟩ := c
    have hunion : node.kind = .union variants := hkind
    obtain ⟨live, rfl⟩ := exists_live_of_shaped hunion h.1
    refine ⟨.node ?_ ?_, h.2⟩
    · rw [hunion]
      exact ⟨variant, by simp [hroot], variant, hv, fits_refl variant⟩
    · simpa using buildWithin_shaped hbuild

theorem Placed.setInput {c : Cursor Node} (h : g.Placed c) (raw : String) :
    g.Placed (Grammar.setInput c raw).cursor := by
  rcases setInput_cases c raw with hstays | hstep
  · exact h.of_stays hstays
  · rw [hstep]
    exact h.modify (Node.setInput_kind c.value raw)

theorem shaped_list_iff {node : Node} {parts : List FormulaTree} {element : Kind}
    (hkind : node.kind = .list element) :
    g.Shaped (.node node parts) ↔
      ∀ part ∈ parts, g.fits element part.value.kind = true ∧ g.Shaped part := by
  rw [shaped_node_iff, hkind]
  simp only [Accepts, rootKinds, List.mem_map, forall_exists_index, and_imp,
    forall_apply_eq_imp_iff₂]
  exact ⟨fun h part hpart ↦ ⟨h.1 part hpart, h.2 part hpart⟩,
    fun h ↦ ⟨fun part hpart ↦ (h part hpart).1, fun part hpart ↦ (h part hpart).2⟩⟩

/-- In a list the elements are judged one by one, whatever their order and number. -/
theorem framed_list_iff {kind element : Kind} {crumb : Crumb Node} {crumbs : List (Crumb Node)}
    (hkind : crumb.parent.kind = .list element) :
    g.Framed kind (crumb :: crumbs) ↔ g.fits element kind = true ∧
      (∀ part ∈ crumb.before ++ crumb.after,
        g.fits element part.value.kind = true ∧ g.Shaped part) ∧
      g.Framed (.list element) crumbs := by
  rw [Framed, hkind]
  simp only [Accepts, List.mem_append, List.mem_cons, rootKinds, List.mem_map]
  constructor
  · rintro ⟨hfits, hshaped, hframed⟩
    refine ⟨hfits kind (by simp), fun part hpart ↦ ⟨hfits _ ?_, hshaped part hpart⟩, hframed⟩
    rcases hpart with hpart | hpart
    · exact Or.inl ⟨part, hpart, rfl⟩
    · exact Or.inr (Or.inr ⟨part, hpart, rfl⟩)
  · rintro ⟨hkind', hparts, hframed⟩
    refine ⟨fun found hfound ↦ ?_, fun part hpart ↦ (hparts part hpart).2, hframed⟩
    rcases hfound with ⟨part, hpart, rfl⟩ | rfl | ⟨part, hpart, rfl⟩
    · exact (hparts part (Or.inl hpart)).1
    · exact hkind'
    · exact (hparts part (Or.inr hpart)).1

theorem Placed.listAdd {c : Cursor Node} {step : EditStep} (h : g.Placed c)
    (hstep : g.listAdd c = .ok step) : g.Placed step.cursor := by
  rcases listAdd_cases hstep with hstays | ⟨element, fresh, hfresh, hdone⟩
  · exact h.of_stays hstays
  · have hbuild := freshKind_eq_ok_iff.mp hfresh
    have hshaped : g.Shaped fresh := buildWithin_shaped hbuild
    have hfits : g.fits element fresh.value.kind = true := by
      rw [buildWithin_kind hbuild]
      exact fits_refl element
    obtain ⟨⟨node, parts⟩, crumbs⟩ := c
    rcases hdone with ⟨hkind, rfl⟩ | ⟨hparent, rfl⟩
    · have hlist : node.kind = .list element := hkind
      have hparts := (shaped_list_iff hlist).mp h.1
      have hframed : g.Framed (.list element) crumbs := hlist ▸ h.2
      exact ⟨hshaped, (framed_list_iff hlist).mpr ⟨hfits, by simpa using hparts, hframed⟩⟩
    · match crumbs with
      | [] => cases hparent
      | ⟨parent, before, after⟩ :: crumbs =>
        have hlist : parent.kind = .list element := Option.some.inj hparent
        obtain ⟨hfocus, hparts, hframed⟩ := (framed_list_iff hlist).mp h.2
        refine ⟨hshaped, ?_⟩
        change g.Framed fresh.value.kind
          (⟨parent, before ++ [.node node parts], after⟩ :: crumbs)
        refine (framed_list_iff hlist).mpr ⟨hfits, fun part hpart ↦ ?_, hframed⟩
        simp only [List.mem_append, List.mem_singleton] at hpart
        rcases hpart with (hpart | rfl) | hpart
        · exact hparts part (List.mem_append_left _ hpart)
        · exact ⟨hfocus, h.1⟩
        · exact hparts part (List.mem_append_right _ hpart)

theorem Placed.delete {c : Cursor Node} {element : Kind} (h : g.Placed c)
    (hparent : c.parent?.map Node.kind = some (.list element)) : g.Placed c.delete := by
  obtain ⟨t, crumbs⟩ := c
  match crumbs with
  | [] => cases hparent
  | ⟨parent, before, after⟩ :: crumbs =>
    have hlist : parent.kind = .list element := Option.some.inj hparent
    have hvariadic : Variadic.isVariadic parent = true := by
      simp [Variadic.isVariadic, hlist, Kind.isVariadic]
    obtain ⟨hfocus, hparts, hframed⟩ := (framed_list_iff hlist).mp h.2
    dsimp only at hparts
    simp only [Cursor.delete, hvariadic, if_true]
    match after with
    | next :: after =>
      have hnext := hparts next (by simp)
      refine ⟨hnext.2, (framed_list_iff hlist).mpr ⟨hnext.1, fun part hpart ↦ ?_, hframed⟩⟩
      exact hparts part (by simp only [List.mem_append, List.mem_cons] at hpart ⊢; tauto)
    | [] =>
      cases hlast : before.getLast? with
      | none =>
        obtain rfl := List.getLast?_eq_none_iff.mp hlast
        refine ⟨(shaped_list_iff hlist).mpr (by simp), ?_⟩
        exact hlist ▸ hframed
      | some previous =>
        have hprevious := hparts previous (by simp [List.mem_of_getLast? hlast])
        refine ⟨hprevious.2,
          (framed_list_iff hlist).mpr ⟨hprevious.1, fun part hpart ↦ ?_, hframed⟩⟩
        rw [List.append_nil] at hpart
        exact hparts part (List.mem_append_left _ (List.dropLast_subset before hpart))

/-- **Every edit keeps the shape.** -/
theorem Placed.editAt {c : Cursor Node} {edit : Edit} {step : EditStep} (h : g.Placed c)
    (hstep : g.editAt c edit = .ok step) : g.Placed step.cursor := by
  cases edit with
  | selectOperator name => exact h.selectOperator hstep
  | selectVariant selector => exact h.selectVariant hstep
  | setInput raw =>
    cases hstep
    exact h.setInput raw
  | listAdd => exact h.listAdd hstep
  | listRemove =>
    cases hstep
    rcases listRemove_cases c with hstays | ⟨element, hparent, hdone⟩
    · exact h.of_stays hstays
    · rw [hdone]
      exact h.delete hparent
  | toggleOpen =>
    cases hstep
    exact h.modify rfl

theorem applyEdit_eq_ok {t t' : FormulaTree} {event : EditEvent} {outcome : Outcome}
    (h : g.applyEdit t event = .ok (t', outcome)) :
    ∃ c step, c.tree = t ∧ g.editAt c event.edit = .ok step ∧ t' = step.cursor.tree ∧
      outcome = step.outcome := by
  unfold applyEdit at h
  split at h
  · cases h
  · next c hdescend =>
    split at h
    · next step hstep =>
      cases h
      exact ⟨c, step, Cursor.descend_tree hdescend, hstep, rfl, rfl⟩
    · cases h

theorem Formed.applyEdit {t t' : FormulaTree} {event : EditEvent} {outcome : Outcome}
    (h : g.Formed t) (happly : g.applyEdit t event = .ok (t', outcome)) : g.Formed t' := by
  obtain ⟨c, step, rfl, hstep, rfl, _⟩ := applyEdit_eq_ok happly
  exact formed_tree_iff.mpr ((formed_tree_iff.mp h).editAt hstep)

end Grammar

end FormulaEdit
