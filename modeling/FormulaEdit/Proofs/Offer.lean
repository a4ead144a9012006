import FormulaEdit.Proofs.Failure
import FormulaEdit.Proofs.Settle

/-!
# What is offered is accepted

A view offers operators and variants by name, and an edit takes a name back. The two go separate
ways: the choices of a view are read off the grammar, by category; the edit looks up the name that
it is given, asks whether the two operators may replace each other, and builds the new one. For
operators the two agree on every name (`Grammar.mem_choicesFor_iff`).

For variants they agree as far as labels tell variants apart. An edit looks for the first variant
with the given label, so of several variants with one label only the first can be selected by it;
and it takes the blanks off both ends first, so a label with blanks there is not found. A label
without blanks at its ends selects the first variant that has it, and this variant is the live one
then: variants of the same kind have the same label, so none before it is of the kind that was
built (`Grammar.liveVariant?_first`).
-/

namespace FormulaEdit

namespace Editor

variable {e : Editor}

theorem apply_path {c : Cursor Node} (htree : c.tree = e.tree) (edit : Edit) :
    e.apply ⟨c.path, edit⟩ = (e.grammar.editAt c edit).map fun step ↦ (step.outcome,
      if step.changed then e.commit step.cursor.tree edit.description else e) := by
  rw [apply, ← htree, Grammar.applyEdit_path]
  cases e.grammar.editAt c edit <;> rfl

/-- What a user can do with the node at a path. -/
def control? (e : Editor) (path : NodePath) : Option Control :=
  (e.view? path).map NodeView.control

theorem control?_eq (e : Editor) (path : NodePath) :
    e.control? path = (e.tree.get? path).map (controlOf e.grammar path.isEmpty) := by
  rw [control?, view?]
  cases e.tree.get? path <;> rfl

end Editor

/-! ## Operators -/

namespace Grammar

variable {g : Grammar}

/-- The operators that are offered in place of another are those that may replace it. -/
theorem mem_choicesFor_iff (hnodup : g.names.Nodup) {current name : String}
    (hcurrent : g.has current = true) {atRoot : Bool} :
    name ∈ Editor.choicesFor g current atRoot ↔
      g.has name = true ∧ (atRoot = true ∨ g.interchangeable current name = true) := by
  rw [Editor.choicesFor, alternatives]
  cases atRoot with
  | true =>
    rw [if_pos rfl, ← names, mem_names_iff_has]
    simp
  | false =>
    obtain ⟨op, hop⟩ := Option.isSome_iff_exists.mp hcurrent
    simp only [hop, returning, interchangeable_iff, List.mem_map, List.mem_filter,
      decide_eq_true_eq, Bool.false_eq_true, if_false, false_or]
    constructor
    · rintro ⟨other, ⟨hother, hreturns⟩, rfl⟩
      have hfound := find?_eq_some_of_mem hnodup hother
      exact ⟨by rw [has, hfound]; rfl, op, other, rfl, hfound, hreturns.symm⟩
    · rintro ⟨_, op', other, hop', hother, hreturns⟩
      obtain rfl := Option.some.inj hop'
      refine ⟨other, ⟨List.mem_of_find?_eq_some hother, hreturns.symm⟩, ?_⟩
      simpa using List.find?_some hother

theorem mem_choicesFor_self (hnodup : g.names.Nodup) {current : String}
    (hcurrent : g.has current = true) (atRoot : Bool) :
    current ∈ Editor.choicesFor g current atRoot := by
  obtain ⟨op, hop⟩ := Option.isSome_iff_exists.mp hcurrent
  rw [mem_choicesFor_iff hnodup hcurrent]
  exact ⟨hcurrent, Or.inr (interchangeable_iff.mpr ⟨op, op, hop, hop, rfl⟩)⟩

theorem Consistent.selectOperator_spec (hg : g.Consistent) {c : Cursor Node} {current : String}
    (hkind : c.value.kind = .operator current) (hcurrent : g.has current = true) (name : String) :
    ∃ step, g.selectOperator c name = .ok step ∧
      (step.miss = none ↔ name ∈ Editor.choicesFor g current c.isRoot) ∧
      (step.miss = none → name ≠ current → step.changed = true ∧ step.cursor.path = c.path ∧
        step.cursor.value.kind = .operator name) := by
  rw [selectOperator]
  simp only [hkind]
  by_cases hsame : current = name
  · subst hsame
    rw [if_pos rfl]
    exact ⟨_, rfl, iff_of_true rfl (mem_choicesFor_self hg.nodup hcurrent _),
      fun _ hne ↦ absurd rfl hne⟩
  · rw [if_neg hsame, mem_choicesFor_iff hg.nodup hcurrent]
    by_cases hhas : g.has name = true
    · by_cases hplace : c.isRoot = true ∨ g.interchangeable current name = true
      · -- loading has left only operators that can be built
        obtain ⟨fresh, hfresh⟩ := hg.exists_freshOperator hhas
        have hmatch : ¬(!c.isRoot && !g.interchangeable current name) = true := by
          simpa using fun hroot ↦ hplace.resolve_left (by simp [hroot])
        rw [if_neg (by simp [hhas]), if_neg hmatch, hfresh]
        refine ⟨_, rfl, iff_of_true rfl ⟨hhas, hplace⟩, fun _ _ ↦ ⟨rfl, rfl, ?_⟩⟩
        have hroot := buildWithin_kind (freshOperator_eq_ok_iff.mp hfresh).2
        obtain ⟨node, parts⟩ := fresh
        exact hroot
      · rw [if_neg (by simp [hhas]), if_pos (by simpa using hplace)]
        exact ⟨_, rfl, by simp [EditStep.missed, hplace], fun h ↦ by cases h⟩
    · rw [if_pos (by simpa using hhas)]
      exact ⟨_, rfl, by simp [EditStep.missed, hhas], fun h ↦ by cases h⟩

theorem Formed.accepts {t part : FormulaTree} {path : NodePath} (h : g.Formed t)
    (hpart : t.get? path = some part) : g.Accepts part.value.kind (rootKinds part.children) := by
  obtain ⟨c, rfl, rfl, rfl⟩ := Cursor.exists_of_get? hpart
  have hshaped := (formed_tree_iff.mp h).1
  rw [← c.focus.node_value_children, shaped_node_iff] at hshaped
  exact hshaped.1

theorem Formed.has_operator {t part : FormulaTree} {path : NodePath} {name : String}
    (h : g.Formed t) (hpart : t.get? path = some part) (hkind : part.value.kind = .operator name) :
    g.has name = true := by
  have haccepts := h.accepts hpart
  rw [hkind] at haccepts
  obtain ⟨op, hop, _⟩ := haccepts
  rw [has, hop]
  rfl

end Grammar

namespace Editor

variable {g : Grammar} {e : Editor} {path : NodePath} {part : FormulaTree}

theorem operatorChoices_of_operator {current : String} (hpart : e.tree.get? path = some part)
    (hkind : part.value.kind = .operator current) :
    e.operatorChoices path = choicesFor e.grammar current path.isEmpty := by
  simp only [operatorChoices, hpart, hkind]

theorem operatorChoices_of_not_operator (hpart : e.tree.get? path = some part)
    (hkind : ∀ current, part.value.kind ≠ .operator current) : e.operatorChoices path = [] := by
  simp only [operatorChoices, hpart]

theorem Sound.apply_selectOperator (h : Sound g e) (hg : g.Consistent) {current : String}
    (hpart : e.tree.get? path = some part) (hkind : part.value.kind = .operator current)
    (name : String) :
    ∃ outcome e', e.apply ⟨path, .selectOperator name⟩ = .ok (outcome, e') ∧
      (outcome.miss = none ↔ name ∈ e.operatorChoices path) ∧
      (outcome.miss = none → name ≠ current → outcome.changed = true ∧ e'.tree ≠ e.tree) := by
  obtain rfl := h.grammar
  have hcurrent := h.tree.has_operator hpart hkind
  obtain ⟨c, htree, rfl, rfl⟩ := Cursor.exists_of_get? hpart
  obtain ⟨step, hstep, hmiss, hdone⟩ := hg.selectOperator_spec hkind hcurrent name
  have hroot : c.path.isEmpty = c.isRoot := by simp [Cursor.path, Cursor.isRoot]
  rw [operatorChoices_of_operator hpart hkind, hroot]
  rw [apply_path htree, Grammar.editAt, hstep]
  refine ⟨_, _, rfl, hmiss, fun hnone hne ↦ ?_⟩
  obtain ⟨hchanged, hpath, hnew⟩ := hdone hnone hne
  refine ⟨hchanged, fun hsame ↦ hne ?_⟩
  -- the operator at the path tells the two formulas apart
  rw [if_pos hchanged] at hsame
  have hfocus : step.cursor.focus = c.focus := by
    have hget := step.cursor.get?_path
    rw [hpath] at hget
    exact Option.some.inj (hget.symm.trans ((congrArg (Tree.get? · c.path) hsame).trans hpart))
  rw [Cursor.value, hfocus] at hnew
  exact Kind.operator.inj (hnew.symm.trans hkind)

/-- **Operators that are offered are accepted.** Where an operator stands, the view lists what
`operatorChoices` lists, the operator itself among it. Selecting a name never fails; it misses
exactly if the name is not listed, and a listed name other than the operator's own changes the
formula. Elsewhere there are no choices, and to select an operator is not applicable or leads
nowhere. -/
theorem selectOperator_accepts_offered (description : Json) {errors : List GrammarError}
    {g : Grammar} (hload : Grammar.ofJson description = (errors, g)) {e : Editor}
    (he : Reachable g e) (path : NodePath) :
    (∀ part current, e.tree.get? path = some part → part.value.kind = .operator current →
      e.control? path = some (.operatorSelector current (e.operatorChoices path)) ∧
      current ∈ e.operatorChoices path ∧
      ∀ name, ∃ outcome e', e.apply ⟨path, .selectOperator name⟩ = .ok (outcome, e') ∧
        (outcome.miss = none ↔ name ∈ e.operatorChoices path) ∧
        (name ∈ e.operatorChoices path → name ≠ current →
          outcome.changed = true ∧ e'.tree ≠ e.tree)) ∧
      (∀ part, e.tree.get? path = some part → (∀ current, part.value.kind ≠ .operator current) →
        e.operatorChoices path = [] ∧
        ∀ name, e.apply ⟨path, .selectOperator name⟩ = .ok (⟨false, path,
          some (.notApplicable (Edit.selectOperator name).description part.value.label)⟩, e)) ∧
      (e.tree.get? path = none → e.operatorChoices path = [] ∧ e.view? path = none ∧
        ∀ name, e.apply ⟨path, .selectOperator name⟩ = .error (.invalidPath path)) := by
  obtain rfl : (Grammar.ofJson description).2 = g := congrArg Prod.snd hload
  have hg := Grammar.ofJson_consistent description
  have hsound := he.sound
  refine ⟨fun part current hpart hkind ↦ ⟨?_, ?_, fun name ↦ ?_⟩,
    fun part hpart hkind ↦ ⟨operatorChoices_of_not_operator hpart hkind, fun name ↦ ?_⟩,
    fun hnone ↦ ⟨?_, ?_, fun name ↦ ?_⟩⟩
  · rw [control?_eq, hpart, operatorChoices_of_operator hpart hkind]
    simp only [Option.map_some, controlOf, hkind]
  · rw [operatorChoices_of_operator hpart hkind, hsound.grammar]
    exact Grammar.mem_choicesFor_self hg.nodup (hsound.tree.has_operator hpart hkind) _
  · obtain ⟨outcome, e', happly, hmiss, hdone⟩ := hsound.apply_selectOperator hg hpart hkind name
    exact ⟨outcome, e', happly, hmiss, fun hname ↦ hdone (hmiss.mpr hname)⟩
  · obtain ⟨c, htree, rfl, rfl⟩ := Cursor.exists_of_get? hpart
    rw [apply_path htree, Grammar.editAt, Grammar.selectOperator]
    split
    · next current hcurrent => exact absurd hcurrent (hkind current)
    · rfl
  · rw [operatorChoices, hnone]
  · rw [view?, hnone]
  · rw [apply_eq_error_iff]
    exact Grammar.applyEdit_of_get?_eq_none hnone

theorem selectOperator_accepts_offered_logic :
    let g := (Grammar.ofJson logic).2
    let e := run (ofTree g (.node (.plain (.operator "test"))
        [.node (.plain (.union [.atom .bool, .operator "flag"])) [.leaf (.ofAtom .bool "false")]]))
      [.command (.edit ⟨[0], .selectVariant "flag"⟩)]
    Reachable g e ∧ e.operatorChoices [0, 0] = ["flag", "all"] ∧
      (∃ outcome e', e.apply ⟨[0, 0], .selectOperator "all"⟩ = .ok (outcome, e') ∧
        outcome.miss = none ∧ e'.tree ≠ e.tree) ∧
      (∃ outcome e', e.apply ⟨[0, 0], .selectOperator "test"⟩ = .ok (outcome, e') ∧
        outcome.miss ≠ none) ∧
      e.operatorChoices [0] = [] ∧ e.view? [7] = none := by
  intro g e
  have hlaunch : launch g (some "test") = .ok (ofTree g (.node (.plain (.operator "test"))
      [.node (.plain (.union [.atom .bool, .operator "flag"]))
        [.leaf (.ofAtom .bool "false")]])) := by decide +kernel
  have he : Reachable g e := (launch_reachable hlaunch).run _
  have hlist : e.operatorChoices [0, 0] = ["flag", "all"] := by decide +kernel
  obtain ⟨part, hpart, hkind⟩ := Option.map_eq_some_iff.mp
    (by decide +kernel : (e.tree.get? [0, 0]).map (·.value.kind) = some (.operator "flag"))
  obtain ⟨union, hunion, hvariants⟩ := Option.map_eq_some_iff.mp
    (by decide +kernel : (e.tree.get? [0]).map (·.value.kind) =
      some (.union [.atom .bool, .operator "flag"]))
  obtain ⟨_, _, hselect⟩ :=
    (selectOperator_accepts_offered logic Prod.mk.eta.symm he [0, 0]).1 part "flag" hpart hkind
  refine ⟨he, hlist, ?_, ?_, ?_, ?_⟩
  · obtain ⟨outcome, e', happly, hmiss, hdone⟩ := hselect "all"
    have hall : "all" ∈ e.operatorChoices [0, 0] := by rw [hlist]; decide
    exact ⟨outcome, e', happly, hmiss.mpr hall, (hdone hall (by decide)).2⟩
  · obtain ⟨outcome, e', happly, hmiss, _⟩ := hselect "test"
    refine ⟨outcome, e', happly, fun hnone ↦ ?_⟩
    have htest := hmiss.mp hnone
    rw [hlist] at htest
    exact absurd htest (by decide)
  · exact ((selectOperator_accepts_offered logic Prod.mk.eta.symm he [0]).2.1 union hunion
      (by simp [hvariants])).1
  · exact ((selectOperator_accepts_offered logic Prod.mk.eta.symm he [7]).2.2
      (by decide +kernel)).2.1

end Editor

/-! ## Variants -/

/-- A label without blanks at its ends stands for the first variant that has it. -/
theorem resolveVariant?_first {variants : List Kind} {label : String}
    (hlabel : label ∈ variants.map Kind.text) (htrim : Text.trimmed label = label) :
    resolveVariant? variants label = some ((variants.map Kind.text).idxOf label) := by
  have hfirst : variants.findIdx? (·.text = label) =
      some ((variants.map Kind.text).idxOf label) := by
    rw [List.findIdx?_eq_some_iff_findIdx_eq]
    refine ⟨by simpa using List.idxOf_lt_length_iff.mpr hlabel, ?_⟩
    rw [List.idxOf, List.findIdx_map]
    rfl
  rw [resolveVariant?, htrim, hfirst, Option.some_or]

namespace Grammar

variable {g : Grammar}

/-- The first variant with a label is the live one once it is built: one of the same kind before it
would have the same label. -/
theorem liveVariant?_first {variants : List Kind} {label : String} {variant : Kind}
    (hvariant : variants[(variants.map Kind.text).idxOf label]? = some variant) :
    g.liveVariant? variants variant = some ((variants.map Kind.text).idxOf label) := by
  obtain ⟨hlt, hget⟩ := List.getElem?_eq_some_iff.mp hvariant
  have hlabel : variant.text = label := by
    have hlt' : (variants.map Kind.text).idxOf label < (variants.map Kind.text).length := by
      simpa using hlt
    have hfound := List.getElem_idxOf hlt'
    rwa [List.getElem_map, hget] at hfound
  have hfirst : variants.findIdx? (· = variant) =
      some ((variants.map Kind.text).idxOf label) := by
    rw [List.findIdx?_eq_some_iff_getElem]
    refine ⟨hlt, by simp [hget], fun j hj heq ↦ ?_⟩
    -- the label of a variant before the first one with the label is another one
    have hearlier := List.not_of_lt_findIdx hj
    rw [List.getElem_map, of_decide_eq_true heq, hlabel, beq_self_eq_true] at hearlier
    cases hearlier
  rw [liveVariant?, hfirst, Option.some_or]

theorem liveIn?_setVariant (variants : List Kind) (c : Cursor Node) (part : FormulaTree) :
    g.liveIn? variants (setVariant c part).focus = g.liveVariant? variants part.value.kind := by
  obtain ⟨⟨union, parts⟩, crumbs⟩ := c
  cases parts <;> rfl

theorem setVariant_value (c : Cursor Node) (part : FormulaTree) :
    (setVariant c part).value = c.value := by
  obtain ⟨⟨union, parts⟩, crumbs⟩ := c
  cases parts <;> rfl

theorem setVariant_path (c : Cursor Node) (part : FormulaTree) :
    (setVariant c part).path = c.path := by
  obtain ⟨⟨union, parts⟩, crumbs⟩ := c
  cases parts <;> rfl

theorem selectVariant_live {c : Cursor Node} {variants : List Kind} {selector : String}
    {index : Nat} (hkind : c.value.kind = .union variants)
    (hindex : resolveVariant? variants selector = some index)
    (hlive : g.liveIn? variants c.focus = some index) :
    g.selectVariant c selector = .ok (.idle c) := by
  obtain ⟨part, _, hpart⟩ := Option.bind_eq_some_iff.mp hlive
  obtain ⟨variant, hvariant, _⟩ := liveVariant?_fits hpart
  rw [liveIn?] at hlive
  rw [selectVariant]
  simp only [hkind, hindex, Option.bind_some, hvariant, Option.map_some, if_pos hlive]

theorem selectVariant_first {c : Cursor Node} {variants : List Kind} {label : String}
    {step : EditStep} (hkind : c.value.kind = .union variants)
    (hlabel : label ∈ variants.map Kind.text) (htrim : Text.trimmed label = label)
    (h : g.selectVariant c label = .ok step) :
    step.miss = none ∧ step.cursor.path = c.path ∧ step.cursor.value.kind = .union variants ∧
      g.liveIn? variants step.cursor.focus = some ((variants.map Kind.text).idxOf label) ∧
      (step.changed = false → step.cursor = c) := by
  have hresolve := resolveVariant?_first hlabel htrim
  by_cases hlive : g.liveIn? variants c.focus = some ((variants.map Kind.text).idxOf label)
  · rw [selectVariant_live hkind hresolve hlive] at h
    cases h
    exact ⟨rfl, rfl, hkind, hlive, fun _ ↦ rfl⟩
  · have hlt : (variants.map Kind.text).idxOf label < variants.length := by
      simpa using List.idxOf_lt_length_iff.mpr hlabel
    have hvariant := List.getElem?_eq_getElem hlt
    rw [liveIn?] at hlive
    rw [selectVariant] at h
    simp only [hkind, hresolve, Option.bind_some, hvariant, Option.map_some, if_neg hlive] at h
    cases hfresh : g.freshKind variants[(variants.map Kind.text).idxOf label] with
    | error error =>
      rw [hfresh] at h
      cases h
    | ok fresh =>
      rw [hfresh] at h
      cases h
      refine ⟨rfl, setVariant_path c fresh, ?_, ?_, fun h ↦ by cases h⟩
      · rw [EditStep.done, setVariant_value, hkind]
      · rw [EditStep.done, liveIn?_setVariant, buildWithin_kind (freshKind_eq_ok_iff.mp hfresh)]
        exact liveVariant?_first hvariant

theorem Formed.exists_live {t part : FormulaTree} {path : NodePath} {variants : List Kind}
    (h : g.Formed t) (hpart : t.get? path = some part) (hkind : part.value.kind = .union variants) :
    ∃ live index, part.children = [live] ∧
      g.liveVariant? variants live.value.kind = some index := by
  have haccepts := h.accepts hpart
  rw [hkind] at haccepts
  obtain ⟨_, hlive, variant, hvariant, hfits⟩ := haccepts
  obtain ⟨live, hparts, rfl⟩ := List.map_eq_singleton_iff.mp hlive
  obtain ⟨index, hindex⟩ := exists_liveVariant? hvariant hfits
  exact ⟨live, index, hparts, hindex⟩

theorem Formed.exists_liveIn? {t part : FormulaTree} {path : NodePath} {variants : List Kind}
    (h : g.Formed t) (hpart : t.get? path = some part) (hkind : part.value.kind = .union variants) :
    ∃ index, g.liveIn? variants part = some index := by
  obtain ⟨live, index, hparts, hindex⟩ := h.exists_live hpart hkind
  exact ⟨index, by rw [liveIn?, hparts, List.head?_cons, Option.bind_some, hindex]⟩

end Grammar

namespace Editor

variable {g : Grammar} {e : Editor} {path : NodePath} {current : Nat} {labels : List String}

theorem control?_eq_variantSelector_iff :
    e.control? path = some (.variantSelector current labels) ↔
      ∃ part variants, e.tree.get? path = some part ∧ part.value.kind = .union variants ∧
        (e.grammar.liveIn? variants part).getD 0 = current ∧ variants.map Kind.text = labels := by
  rw [control?_eq, Option.map_eq_some_iff]
  constructor
  · rintro ⟨part, hpart, hcontrol⟩
    rw [controlOf] at hcontrol
    split at hcontrol
    · cases hcontrol
    · next variants hkind =>
      obtain ⟨hcurrent, hlabels⟩ := Control.variantSelector.inj hcontrol
      exact ⟨part, variants, hpart, hkind, hcurrent, hlabels⟩
    · cases hcontrol
    · cases hcontrol
  · rintro ⟨part, variants, hpart, hkind, rfl, rfl⟩
    refine ⟨part, hpart, ?_⟩
    simp only [controlOf, hkind]
    rfl

theorem apply_selectVariant_live {part : FormulaTree} {variants : List Kind} {selector : String}
    {index : Nat} (hpart : e.tree.get? path = some part) (hkind : part.value.kind = .union variants)
    (hindex : resolveVariant? variants selector = some index)
    (hlive : e.grammar.liveIn? variants part = some index) :
    e.apply ⟨path, .selectVariant selector⟩ = .ok (⟨false, path, none⟩, e) := by
  obtain ⟨c, htree, rfl, rfl⟩ := Cursor.exists_of_get? hpart
  rw [apply_path htree, Grammar.editAt, Grammar.selectVariant_live hkind hindex hlive]
  rfl

theorem apply_selectVariant_first {part : FormulaTree} {variants : List Kind} {label : String}
    {outcome : Outcome} {e' : Editor} (hpart : e.tree.get? path = some part)
    (hkind : part.value.kind = .union variants) (hlabel : label ∈ variants.map Kind.text)
    (htrim : Text.trimmed label = label)
    (h : e.apply ⟨path, .selectVariant label⟩ = .ok (outcome, e')) :
    outcome.miss = none ∧ ∃ part', e'.tree.get? path = some part' ∧
      part'.value.kind = .union variants ∧
      e'.grammar.liveIn? variants part' = some ((variants.map Kind.text).idxOf label) := by
  obtain ⟨c, htree, rfl, rfl⟩ := Cursor.exists_of_get? hpart
  rw [apply_path htree, Grammar.editAt] at h
  cases hstep : e.grammar.selectVariant c label with
  | error error =>
    rw [hstep] at h
    cases h
  | ok step =>
    rw [hstep] at h
    obtain ⟨hmiss, hpath, hunion, hlive, hstays⟩ :=
      Grammar.selectVariant_first hkind hlabel htrim hstep
    obtain ⟨rfl, rfl⟩ := Prod.mk.inj (Except.ok.inj h)
    have hget := step.cursor.get?_path
    rw [hpath] at hget
    refine ⟨hmiss, step.cursor.focus, ?_⟩
    split_ifs with hchanged
    · exact ⟨hget, hunion, hlive⟩
    · -- the editor is kept as it is, and so is the cursor
      rw [← htree, ← hstays (by simpa using hchanged), hpath]
      exact ⟨hget, hunion, hlive⟩

/-- **Variants that are offered are accepted**, as far as labels tell them apart. To select a label
without blanks at its ends does not miss, unless it fails. It leads to the first variant with this
label, and to select the label again does nothing then. In particular nothing happens if that is the
current variant. -/
theorem selectVariant_accepts_offered {g : Grammar} {e : Editor} (he : Reachable g e)
    {path : NodePath} {current : Nat} {labels : List String}
    (hoffer : e.control? path = some (.variantSelector current labels)) {i : Nat} {label : String}
    (hi : labels[i]? = some label) (htrim : Text.trimmed label = label) :
    (∀ outcome e', e.apply ⟨path, .selectVariant label⟩ = .ok (outcome, e') →
      outcome.miss = none ∧
      e'.control? path = some (.variantSelector (labels.idxOf label) labels) ∧
      e'.apply ⟨path, .selectVariant label⟩ = .ok (⟨false, path, none⟩, e')) ∧
      (labels.idxOf label = current →
        e.apply ⟨path, .selectVariant label⟩ = .ok (⟨false, path, none⟩, e)) := by
  obtain ⟨part, variants, hpart, hkind, hcurrent, rfl⟩ := control?_eq_variantSelector_iff.mp hoffer
  have hlabel := List.mem_of_getElem? hi
  have hresolve := resolveVariant?_first hlabel htrim
  constructor
  · intro outcome e' happly
    obtain ⟨hmiss, part', hpart', hkind', hlive⟩ :=
      apply_selectVariant_first hpart hkind hlabel htrim happly
    refine ⟨hmiss, ?_, apply_selectVariant_live hpart' hkind' hresolve hlive⟩
    exact control?_eq_variantSelector_iff.mpr
      ⟨part', variants, hpart', hkind', by rw [hlive, Option.getD_some], rfl⟩
  · intro hfirst
    have hsound := he.sound
    obtain ⟨index, hindex⟩ := hsound.tree.exists_liveIn? hpart hkind
    rw [← hsound.grammar] at hindex
    -- the live variant is the current one, not just a default for there being none
    rw [hindex, Option.getD_some, ← hfirst] at hcurrent
    exact apply_selectVariant_live hpart hkind hresolve (hcurrent ▸ hindex)

theorem selectVariant_accepts_offered_logic :
    let g := (Grammar.ofJson logic).2
    let e := ofTree g (.node (.plain (.operator "test"))
      [.node (.plain (.union [.atom .bool, .operator "flag"])) [.leaf (.ofAtom .bool "false")]])
    Reachable g e ∧ e.control? [0] = some (.variantSelector 0 ["bool", "flag"]) ∧
      e.apply ⟨[0], .selectVariant "bool"⟩ = .ok (⟨false, [0], none⟩, e) ∧
      ∃ outcome e', e.apply ⟨[0], .selectVariant "flag"⟩ = .ok (outcome, e') ∧
        outcome.miss = none ∧ e'.control? [0] = some (.variantSelector 1 ["bool", "flag"]) ∧
        e'.apply ⟨[0], .selectVariant "flag"⟩ = .ok (⟨false, [0], none⟩, e') := by
  intro g e
  have he : Reachable g e := launch_reachable (by decide +kernel : launch g (some "test") = .ok e)
  have hoffer : e.control? [0] = some (.variantSelector 0 ["bool", "flag"]) := by decide +kernel
  have hok : (e.apply ⟨[0], .selectVariant "flag"⟩).isOk = true := by decide +kernel
  have hbool := selectVariant_accepts_offered (i := 0) he hoffer rfl
    (by decide : Text.trimmed "bool" = "bool")
  have hflag := selectVariant_accepts_offered (i := 1) he hoffer rfl
    (by decide : Text.trimmed "flag" = "flag")
  refine ⟨he, hoffer, hbool.2 (by decide), ?_⟩
  cases happly : e.apply ⟨[0], .selectVariant "flag"⟩ with
  | error error =>
    rw [happly] at hok
    cases hok
  | ok result => exact ⟨result.1, result.2, rfl, hflag.1 _ _ happly⟩

/-- A grammar with an atom and an operator of the same name. -/
def namesakes : Json :=
  .arr [Grammar.entry "pick" none [("which", "Union[number, Num]")],
    Grammar.entry "number" (some "Num") []]

/-- A grammar with a blank at the start of a name. -/
def indented : Json :=
  .arr [Grammar.entry "pick" none [("which", "Union[int, Num]")],
    Grammar.entry " one" (some "Num") []]

/-- Labels do not always tell variants apart. If two variants have the same label, sending the
label of the current one can replace it by the other; and a label with a blank at its start is
offered but not found. -/
theorem offered_variant_not_selected :
    (let g := (Grammar.ofJson namesakes).2
      let e := run (ofTree g (.node (.plain (.operator "pick"))
          [.node (.plain (.union [.atom .number, .operator "number"]))
            [.leaf (.ofAtom .number "0")]]))
        [.command (.edit ⟨[0], .selectVariant "1"⟩)]
      Reachable g e ∧ e.control? [0] = some (.variantSelector 1 ["number", "number"]) ∧
        ∃ outcome e', e.apply ⟨[0], .selectVariant "number"⟩ = .ok (outcome, e') ∧
          e'.control? [0] = some (.variantSelector 0 ["number", "number"]) ∧ e'.tree ≠ e.tree) ∧
    (let g := (Grammar.ofJson indented).2
      let e := ofTree g (.node (.plain (.operator "pick"))
        [.node (.plain (.union [.atom .int, .operator " one"])) [.leaf (.ofAtom .int "0")]])
      Reachable g e ∧ e.control? [0] = some (.variantSelector 0 ["int", " one"]) ∧
        e.apply ⟨[0], .selectVariant " one"⟩ =
          .ok (⟨false, [0], some (.unknownVariant " one")⟩, e)) := by
  constructor
  · intro g e
    have hlaunch : launch g (some "pick") = .ok (ofTree g (.node (.plain (.operator "pick"))
        [.node (.plain (.union [.atom .number, .operator "number"]))
          [.leaf (.ofAtom .number "0")]])) := by decide +kernel
    have hresult : (e.apply ⟨[0], .selectVariant "number"⟩).toOption.any (fun result ↦
        decide (result.2.control? [0] = some (.variantSelector 0 ["number", "number"])) &&
          decide (result.2.tree ≠ e.tree)) = true := by decide +kernel
    refine ⟨(launch_reachable hlaunch).run _, by decide +kernel, ?_⟩
    cases happly : e.apply ⟨[0], .selectVariant "number"⟩ with
    | error error =>
      rw [happly] at hresult
      cases hresult
    | ok result =>
      rw [happly] at hresult
      exact ⟨result.1, result.2, rfl, by simpa [Except.toOption] using hresult⟩
  · intro g e
    exact ⟨launch_reachable (by decide +kernel : launch g (some "pick") = .ok e),
      by decide +kernel, by decide +kernel⟩

end Editor

end FormulaEdit
