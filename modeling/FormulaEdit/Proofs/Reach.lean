import FormulaEdit.Proofs.Editor
import FormulaEdit.Proofs.Selector
import Mathlib.Logic.Relation

/-!
# Every formula can be reached

Edits are strong enough to make any formula of the right shape. The edits that do it are found by
following the formula that is wanted. An operator is selected and then its parts are made one after
the other; a variant is selected and then made; a list is emptied and then filled from the front; an
atom gets its text. Last, the node is folded or unfolded as wanted.

`Turns crumbs s t` says that the part `s` can be turned into `t` where it stands. What surrounds it
matters in one place only: below the root an operator gives way just to those of its category. So
the part that is there has to fit the one that is wanted, and this is kept while going down, because
both fit the kind that is declared for them.

The parts that edits put in are built from defaults, which is where depth comes in. A grammar is
loaded only if its operators can be built, but this says nothing about the elements of lists and the
later variants of unions. For these it is an assumption.
-/

namespace FormulaEdit

/-! ## Text and flags -/

namespace Node

/-- A node that is no atom has no text and nothing wrong with it. -/
def Bare (node : Node) : Prop :=
  (∀ type, node.kind ≠ .atom type) → node.input = "" ∧ node.flags.invalid = none

/-- A node as edits leave it: an atom with a well-formed text in normal form or with the reason why
its text is not well formed, and any other node without text. -/
def Coherent (node : Node) : Prop :=
  match node.kind with
  | .atom type =>
    match type.check node.input with
    | .ok normal => normal = node.input ∧ node.flags.invalid = none
    | .error rejection => node.flags.invalid = some rejection.message
  | _ => node.input = "" ∧ node.flags.invalid = none

def setOpen (node : Node) (isOpen : Bool) : Node :=
  { node with flags := { node.flags with isOpen } }

theorem Coherent.bare {node : Node} (h : node.Coherent) : node.Bare := by
  intro hatom
  unfold Coherent at h
  split at h
  · next type hkind => exact absurd hkind (hatom type)
  · exact h

theorem Coherent.entry {node : Node} {type : Atom} (h : node.Coherent)
    (hkind : node.kind = .atom type) :
    Node.entry type node.input = (node.input, node.flags.invalid) := by
  simp only [Coherent, hkind] at h
  rw [Node.entry]
  cases hcheck : type.check node.input with
  | ok normal =>
    rw [hcheck] at h
    rw [h.1, h.2]
  | error rejection =>
    rw [hcheck] at h
    rw [h]

/-- Apart from atoms, nodes of one kind differ only in whether they are open. -/
theorem setOpen_eq {node wanted : Node} (hatom : ∀ type, wanted.kind ≠ .atom type)
    (hkind : node.kind = wanted.kind) (hnode : node.Bare) (hwanted : wanted.Bare) :
    node.setOpen wanted.flags.isOpen = wanted := by
  obtain ⟨hinput, hinvalid⟩ := hnode (hkind ▸ hatom)
  obtain ⟨hinput', hinvalid'⟩ := hwanted hatom
  obtain ⟨kind, input, isOpen, invalid⟩ := node
  obtain ⟨kind', input', isOpen', invalid'⟩ := wanted
  simp only at hkind hinput hinvalid hinput' hinvalid'
  simp [setOpen, hkind, hinput, hinvalid, hinput', hinvalid']

end Node

namespace Grammar

variable {g : Grammar} {crumbs : List (Crumb Node)}

theorem buildWithin_bare {levels remaining : Nat} {kind : Kind} {initial : Option String}
    {t : FormulaTree} (h : g.buildWithin levels remaining kind initial = .ok t) :
    t.All Node.Bare := by
  have hplain : ∀ kind, (Node.plain kind).Bare := fun kind _ ↦ ⟨rfl, rfl⟩
  refine (buildWithin_induction (P := fun _ _ t ↦ t.All Node.Bare) ?_ ?_ ?_ ?_ h).2
  · intro _ type raw
    refine .node (fun hatom ↦ absurd ?_ (hatom type)) (by simp)
    rw [Node.ofAtom, Node.setInput_kind]
    rfl
  · exact fun _ element ↦ .node (hplain _) (by simp)
  · exact fun _ first rest live _ hlive ↦ .node (hplain _) (by simpa using hlive)
  · intro _ name op parts _ hparts
    refine .node (hplain _) fun part hpart ↦ ?_
    obtain ⟨arg, _, _, hbare⟩ := exists_left_of_forall₂ hparts hpart
    exact hbare

/-! ## Turning one part into another -/

/-- One edit that applies, somewhere in a formula. -/
def Edits (g : Grammar) (t t' : FormulaTree) : Prop :=
  ∃ event outcome, g.applyEdit t event = .ok (t', outcome) ∧ outcome.miss = none

/-- A part can be turned into another one by edits, what surrounds it staying the same. -/
def Turns (g : Grammar) (crumbs : List (Crumb Node)) (s t : FormulaTree) : Prop :=
  Relation.ReflTransGen g.Edits (Cursor.plug s crumbs) (Cursor.plug t crumbs)

theorem Turns.refl (t : FormulaTree) : g.Turns crumbs t t := Relation.ReflTransGen.refl

theorem Turns.trans {s t u : FormulaTree} (h : g.Turns crumbs s t) (h' : g.Turns crumbs t u) :
    g.Turns crumbs s u :=
  Relation.ReflTransGen.trans h h'

theorem edits_of_editAt {c : Cursor Node} {edit : Edit} {step : EditStep}
    (h : g.editAt c edit = .ok step) (hmiss : step.miss = none) :
    g.Edits c.tree step.cursor.tree := by
  refine ⟨⟨c.path, edit⟩, step.outcome, ?_, hmiss⟩
  rw [applyEdit, Cursor.descend_path]
  simp only [h]

theorem turns_of_editAt {s t : FormulaTree} (edit : Edit) {step : EditStep}
    (h : g.editAt ⟨s, crumbs⟩ edit = .ok step) (hmiss : step.miss = none)
    (htree : step.cursor.tree = Cursor.plug t crumbs) : g.Turns crumbs s t := by
  refine Relation.ReflTransGen.single ?_
  rw [← htree]
  exact edits_of_editAt h hmiss

theorem turns_setOpen (node : Node) (parts : List FormulaTree) (isOpen : Bool) :
    g.Turns crumbs (.node node parts) (.node (node.setOpen isOpen) parts) := by
  by_cases hopen : node.flags.isOpen = isOpen
  · subst hopen
    exact .refl _
  · refine turns_of_editAt .toggleOpen rfl rfl ?_
    have htoggle : node.toggle = node.setOpen isOpen := by
      rw [Node.toggle, Node.setOpen, Bool.not_eq.mpr hopen]
    rw [← htoggle]
    rfl

theorem turns_parts (node : Node) (before : List FormulaTree) {parts wanted : List FormulaTree}
    (h : List.Forall₂ (fun s t ↦ ∀ crumb crumbs, g.Turns (crumb :: crumbs) s t) parts wanted) :
    g.Turns crumbs (.node node (before ++ parts)) (.node node (before ++ wanted)) := by
  induction h generalizing before with
  | nil => exact .refl _
  | @cons s t parts wanted hst _ ih =>
    have hfirst : g.Turns crumbs (.node node (before ++ s :: parts))
        (.node node (before ++ t :: parts)) := hst ⟨node, before, parts⟩ crumbs
    have hrest := ih (before ++ [t])
    rw [List.append_assoc, List.append_assoc] at hrest
    exact hfirst.trans hrest

/-! ## Atoms -/

theorem setInput_cursor (c : Cursor Node) (raw : String) :
    (setInput c raw).cursor = c.modify (·.setInput raw) ∧ (setInput c raw).miss = none := by
  obtain ⟨⟨node, parts⟩, crumbs⟩ := c
  unfold setInput
  dsimp only
  split_ifs with hsame
  · refine ⟨?_, rfl⟩
    have hnode : node.setInput raw = node := hsame
    change _ = (⟨.node (node.setInput raw) parts, crumbs⟩ : Cursor Node)
    rw [hnode]
    rfl
  · exact ⟨rfl, rfl⟩

theorem turns_atom {node wanted : Node} {type : Atom} (parts : List FormulaTree)
    (hnode : node.kind = .atom type) (hkind : wanted.kind = .atom type)
    (hwanted : wanted.Coherent) : g.Turns crumbs (.node node parts) (.node wanted parts) := by
  obtain ⟨hcursor, hmiss⟩ := setInput_cursor ⟨.node node parts, crumbs⟩ wanted.input
  have htext : g.Turns crumbs (.node node parts) (.node (node.setInput wanted.input) parts) :=
    turns_of_editAt (.setInput wanted.input) rfl hmiss (congrArg Cursor.tree hcursor)
  have hopen : g.Turns crumbs (.node (node.setInput wanted.input) parts)
      (.node ((node.setInput wanted.input).setOpen wanted.flags.isOpen) parts) :=
    turns_setOpen _ _ _
  have hresult : (node.setInput wanted.input).setOpen wanted.flags.isOpen = wanted := by
    have hentry := hwanted.entry hkind
    simp only [Node.setInput, hnode, hentry, Node.setOpen]
    obtain ⟨kind, input, isOpen, invalid⟩ := wanted
    simp only at hkind
    rw [hkind, ← hnode]
  rw [hresult] at hopen
  exact htext.trans hopen

/-! ## Operators -/

theorem selectOperator_eq_done {node root : Node} {parts fresh : List FormulaTree}
    {current name : String} (hkind : node.kind = .operator current) (hne : current ≠ name)
    (hplace : crumbs = [] ∨ g.fits (.operator current) (.operator name) = true)
    (hok : g.freshOperator name = .ok (.node root fresh)) :
    g.selectOperator ⟨.node node parts, crumbs⟩ name =
      .ok (.done ⟨.node (root.setOpen node.flags.isOpen) fresh, crumbs⟩) := by
  have hhas : g.has name = true := (freshOperator_eq_ok_iff.mp hok).1
  have hmatch : (!Cursor.isRoot (⟨.node node parts, crumbs⟩ : Cursor Node) &&
      !g.interchangeable current name) = false := by
    rcases hplace with rfl | hfits
    · rfl
    · rcases fits_iff.mp hfits with heq | ⟨a, b, ha, hb, hi⟩
      · exact absurd (Kind.operator.inj heq) hne
      · obtain rfl := Kind.operator.inj ha
        obtain rfl := Kind.operator.inj hb
        rw [hi, Bool.not_true, Bool.and_false]
  rw [selectOperator]
  simp only [Cursor.value, Tree.value_node, hkind, hne, hhas, hmatch, hok, if_false,
    Bool.not_true, Bool.false_eq_true]
  rfl

theorem exists_turns_operator {node : Node} {parts : List FormulaTree} {current name : String}
    (hkind : node.kind = .operator current) (hshaped : g.Shaped (.node node parts))
    (hbare : (Tree.node node parts).All Node.Bare) (hname : name ∈ g.names)
    (hdepth : ∃ n ≤ maxDepth, g.HasDepth (.operator name) n)
    (hplace : crumbs = [] ∨ g.fits (.operator current) (.operator name) = true) :
    ∃ parts',
      g.Turns crumbs (.node node parts) (.node { node with kind := .operator name } parts') ∧
      g.Shaped (.node { node with kind := .operator name } parts') ∧
      ∀ part ∈ parts', part.All Node.Bare := by
  obtain ⟨hnode, hparts⟩ := Tree.all_node_iff.mp hbare
  by_cases hsame : current = name
  · subst hsame
    have heq : { node with kind := .operator current } = node := by rw [← hkind]
    rw [heq]
    exact ⟨parts, .refl _, hshaped, hparts⟩
  · obtain ⟨⟨root, fresh⟩, hbuild⟩ := build_isOk_iff.mpr hdepth
    have hok : g.freshOperator name = .ok (.node root fresh) :=
      freshOperator_eq_ok_iff.mpr ⟨mem_names_iff_has.mp hname, hbuild⟩
    have hroot : root.kind = .operator name := buildWithin_kind hbuild
    have hshape := shaped_node_iff.mp (buildWithin_shaped hbuild)
    have hfresh := Tree.all_node_iff.mp (buildWithin_bare hbuild)
    -- the new operator takes over whether it is open, which is all that is left of the old one
    have hwanted : Node.Bare { node with kind := .operator name } :=
      fun _ ↦ hnode (by simp [hkind])
    have hresult : root.setOpen node.flags.isOpen = { node with kind := .operator name } :=
      Node.setOpen_eq (by simp) hroot hfresh.1 hwanted
    have hturns : g.Turns crumbs (.node node parts)
        (.node (root.setOpen node.flags.isOpen) fresh) :=
      turns_of_editAt (.selectOperator name) (selectOperator_eq_done hkind hsame hplace hok) rfl rfl
    rw [← hresult]
    exact ⟨fresh, hturns, shaped_node_iff.mpr hshape, hfresh.2⟩

/-! ## Unions -/

theorem exists_turns_variant (crumbs : List (Crumb Node)) {node : Node} {live : FormulaTree}
    {variants : List Kind} {index : Nat} {variant : Kind} (hkind : node.kind = .union variants)
    (hshaped : g.Shaped live) (hbare : live.All Node.Bare)
    (hindex : variants[index]? = some variant)
    (hdepth : ∃ n ≤ maxDepth, g.HasDepth variant n) :
    ∃ live', g.Turns crumbs (.node node [live]) (.node node [live']) ∧
      g.fits variant live'.value.kind = true ∧ g.Shaped live' ∧ live'.All Node.Bare := by
  obtain ⟨selector, hselector⟩ :=
    exists_selector (List.getElem?_eq_some_iff.mp hindex).1
  by_cases hlive : g.liveVariant? variants live.value.kind = some index
  · obtain ⟨found, hfound, hfits⟩ := liveVariant?_fits hlive
    obtain rfl : found = variant := Option.some.inj (hfound.symm.trans hindex)
    exact ⟨live, .refl _, hfits, hshaped, hbare⟩
  · obtain ⟨fresh, hbuild⟩ := build_isOk_iff.mpr hdepth
    have hok : g.freshKind variant = .ok fresh := freshKind_eq_ok_iff.mpr hbuild
    have hstep : g.editAt ⟨.node node [live], crumbs⟩ (.selectVariant selector) =
        .ok (.done ⟨.node node [fresh], crumbs⟩) := by
      rw [editAt, selectVariant]
      simp only [Cursor.value, Tree.value_node, Tree.children_node, hkind, hselector,
        Option.bind_some, hindex, Option.map_some, List.head?_cons, hlive, if_false, hok]
      rfl
    refine ⟨fresh, turns_of_editAt _ hstep rfl rfl, ?_, buildWithin_shaped hbuild,
      buildWithin_bare hbuild⟩
    rw [buildWithin_kind hbuild]
    exact fits_refl variant

/-! ## Lists -/

theorem delete_first_tree {node : Node} {element : Kind} (hkind : node.kind = .list element)
    (part : FormulaTree) (parts : List FormulaTree) :
    (Cursor.delete ⟨part, ⟨node, [], parts⟩ :: crumbs⟩).tree =
      Cursor.plug (.node node parts) crumbs := by
  have hvariadic : Variadic.isVariadic node = true := by
    change node.kind.isVariadic = true
    rw [hkind]
    rfl
  simp only [Cursor.delete, hvariadic, if_true]
  cases parts with
  | nil => rfl
  | cons next parts => rfl

theorem turns_clear {node : Node} {element : Kind} (hkind : node.kind = .list element)
    (parts : List FormulaTree) : g.Turns crumbs (.node node parts) (.node node []) := by
  induction parts with
  | nil => exact .refl _
  | cons part parts ih =>
    have hstep : g.editAt ⟨part, ⟨node, [], parts⟩ :: crumbs⟩ .listRemove =
        .ok (.done (Cursor.delete ⟨part, ⟨node, [], parts⟩ :: crumbs⟩)) := by
      simp only [editAt, listRemove, Cursor.parent?, List.head?_cons, Option.map_some, hkind]
    have hedits := edits_of_editAt hstep rfl
    rw [EditStep.done, delete_first_tree hkind] at hedits
    exact Turns.trans (Relation.ReflTransGen.single hedits) ih

theorem exists_turns_push (crumbs : List (Crumb Node)) {node : Node} {element : Kind}
    (hkind : node.kind = .list element) (hdepth : ∃ n ≤ maxDepth, g.HasDepth element n)
    (parts : List FormulaTree) :
    ∃ fresh, g.Turns crumbs (.node node parts) (.node node (parts ++ [fresh])) ∧
      fresh.value.kind = element ∧ g.Shaped fresh ∧ fresh.All Node.Bare := by
  obtain ⟨fresh, hbuild⟩ := build_isOk_iff.mpr hdepth
  have hok : g.freshKind element = .ok fresh := freshKind_eq_ok_iff.mpr hbuild
  have hstep : g.editAt ⟨.node node parts, crumbs⟩ .listAdd =
      .ok (.done (Cursor.pushChild ⟨.node node parts, crumbs⟩ fresh)) := by
    rw [editAt, listAdd]
    simp only [Cursor.value, Tree.value_node, hkind, hok]
  exact ⟨fresh, turns_of_editAt _ hstep rfl rfl, buildWithin_kind hbuild,
    buildWithin_shaped hbuild, buildWithin_bare hbuild⟩

/-- A list can be filled from the front, if what is wanted can be made of new elements. -/
theorem turns_fill {node : Node} {element : Kind} (hkind : node.kind = .list element)
    (hdepth : ∃ n ≤ maxDepth, g.HasDepth element n) (made : List FormulaTree)
    {wanted : List FormulaTree}
    (h : ∀ t ∈ wanted, ∀ s : FormulaTree, s.value.kind = element → g.Shaped s → s.All Node.Bare →
      ∀ crumb crumbs, g.Turns (crumb :: crumbs) s t) :
    g.Turns crumbs (.node node made) (.node node (made ++ wanted)) := by
  induction wanted generalizing made with
  | nil =>
    rw [List.append_nil]
    exact .refl _
  | cons t wanted ih =>
    obtain ⟨fresh, hpush, hfresh, hshaped, hbare⟩ :=
      exists_turns_push crumbs hkind hdepth made
    have hmake : g.Turns crumbs (.node node (made ++ [fresh])) (.node node (made ++ [t])) :=
      h t List.mem_cons_self fresh hfresh hshaped hbare ⟨node, made, []⟩ crumbs
    have hrest := ih (made ++ [t]) fun u hu ↦ h u (List.mem_cons_of_mem _ hu)
    rw [List.append_assoc, List.singleton_append] at hrest
    exact (hpush.trans hmake).trans hrest

/-! ## Following the formula that is wanted -/

/-- A kind that occurs in that of some argument. -/
def Occurs (g : Grammar) (kind : Kind) : Prop :=
  ∃ op ∈ g.operators, ∃ arg ∈ op.args, kind.Within arg.kind

/-- A grammar with defaults for all that an edit may put in. -/
structure Buildable (g : Grammar) : Prop where
  /-- Operators have a bounded default. -/
  operator : ∀ name ∈ g.names, ∃ n ≤ maxDepth, g.HasDepth (.operator name) n
  /-- So have the elements of lists. -/
  element : ∀ element, g.Occurs (.list element) → ∃ n ≤ maxDepth, g.HasDepth element n
  /-- So have all variants of unions. -/
  variant : ∀ variants, g.Occurs (.union variants) → ∀ variant ∈ variants,
    ∃ n ≤ maxDepth, g.HasDepth variant n

/-- A formula that can be made below the root of any part that fits it. -/
def Makes (g : Grammar) (t : FormulaTree) : Prop :=
  ∀ s : FormulaTree, g.Shaped s → s.All Node.Bare → g.fits s.value.kind t.value.kind = true →
    ∀ crumb crumbs, g.Turns (crumb :: crumbs) s t

theorem Occurs.of_within {inner kind : Kind} (h : g.Occurs kind) (hinner : inner.Within kind) :
    g.Occurs inner := by
  obtain ⟨op, hop, arg, harg, hkind⟩ := h
  exact ⟨op, hop, arg, harg, hinner.trans hkind⟩

theorem forall₂_of_common {α β γ : Type} {R : α → β → Prop} {S : α → γ → Prop} {T : β → γ → Prop}
    {xs : List α} {ys : List β} {zs : List γ} (h : List.Forall₂ R xs ys)
    (h' : List.Forall₂ S xs zs)
    (hT : ∀ x, ∀ y ∈ ys, ∀ z ∈ zs, R x y → S x z → T y z) : List.Forall₂ T ys zs := by
  induction h generalizing zs with
  | nil =>
    cases h'
    exact .nil
  | @cons x y xs ys hR _ ih =>
    obtain ⟨z, zs, hS, hrest, rfl⟩ := List.forall₂_cons_left_iff.mp h'
    refine .cons (hT x y List.mem_cons_self z List.mem_cons_self hR hS) (ih hrest ?_)
    exact fun x y hy z hz ↦ hT x y (List.mem_cons_of_mem _ hy) z (List.mem_cons_of_mem _ hz)

section Wanted

variable {node wanted : Node} {parts wantedParts : List FormulaTree}

/-- A node that stands, with the right parts, is the one that is wanted once it is folded or
unfolded. -/
theorem turns_wanted (hatom : ∀ type, wanted.kind ≠ .atom type) (hkind : node.kind = wanted.kind)
    (hnode : node.Bare) (hwanted : wanted.Bare) :
    g.Turns crumbs (.node node wantedParts) (.node wanted wantedParts) := by
  have hopen : g.Turns crumbs (.node node wantedParts)
      (.node (node.setOpen wanted.flags.isOpen) wantedParts) := turns_setOpen _ _ _
  rwa [Node.setOpen_eq hatom hkind hnode hwanted] at hopen

theorem turns_operator (hg : g.Buildable) {current name : String}
    (hkind : node.kind = .operator current) (hwkind : wanted.kind = .operator name)
    (hshaped : g.Shaped (.node node parts)) (hbare : (Tree.node node parts).All Node.Bare)
    (hwshaped : g.Shaped (.node wanted wantedParts)) (hwbare : wanted.Bare)
    (hplace : crumbs = [] ∨ g.fits (.operator current) (.operator name) = true)
    (hparts : ∀ t ∈ wantedParts, g.Makes t) :
    g.Turns crumbs (.node node parts) (.node wanted wantedParts) := by
  obtain ⟨op, hop, hfits⟩ : g.Accepts (.operator name) (rootKinds wantedParts) :=
    hwkind ▸ (shaped_node_iff.mp hwshaped).1
  have hname : name ∈ g.names := by
    rw [mem_names_iff_has, has, hop]
    rfl
  obtain ⟨parts', hturn, hshaped', hbare'⟩ :=
    exists_turns_operator hkind hshaped hbare hname (hg.operator name hname) hplace
  obtain ⟨⟨op', hop', hfits'⟩, hparts'⟩ := shaped_node_iff.mp hshaped'
  obtain rfl : op = op' := Option.some.inj (hop.symm.trans hop')
  rw [rootKinds, List.forall₂_map_right_iff] at hfits hfits'
  -- the parts that stand and those that are wanted fit the same arguments
  have hmake : List.Forall₂ (fun s t ↦ ∀ crumb crumbs, g.Turns (crumb :: crumbs) s t) parts'
      wantedParts :=
    forall₂_of_common hfits' hfits fun arg s hs t ht hfs hft ↦
      hparts t ht s (hparts' s hs) (hbare' s hs) (fits_trans (fits_symm hfs) hft)
  have hbareNode : Node.Bare { node with kind := .operator name } :=
    fun _ ↦ (Tree.all_node_iff.mp hbare).1 (by simp [hkind])
  refine (hturn.trans (turns_parts _ [] hmake)).trans ?_
  exact turns_wanted (by simp [hwkind]) hwkind.symm hbareNode hwbare

theorem turns_union (hg : g.Buildable) {variants : List Kind} (hoccurs : g.Occurs (.union variants))
    (hkind : node.kind = .union variants) (hwkind : wanted.kind = .union variants)
    (hshaped : g.Shaped (.node node parts)) (hbare : (Tree.node node parts).All Node.Bare)
    (hwshaped : g.Shaped (.node wanted wantedParts)) (hwbare : wanted.Bare)
    (hparts : ∀ t ∈ wantedParts, g.Makes t) :
    g.Turns crumbs (.node node parts) (.node wanted wantedParts) := by
  obtain ⟨live, rfl⟩ := exists_live_of_shaped hkind hshaped
  obtain ⟨target, rfl⟩ := exists_live_of_shaped hwkind hwshaped
  obtain ⟨kind, hroot, declared, hdeclared, hfits⟩ :
      g.Accepts (.union variants) (rootKinds [target]) :=
    hwkind ▸ (shaped_node_iff.mp hwshaped).1
  obtain rfl : target.value.kind = kind := (List.cons.inj hroot).1
  obtain ⟨index, hindex⟩ := exists_liveVariant? hdeclared hfits
  obtain ⟨variant, hvariant, hvfits⟩ := liveVariant?_fits hindex
  obtain ⟨hnode, hbareParts⟩ := Tree.all_node_iff.mp hbare
  have hliveShaped := (shaped_node_iff.mp hshaped).2 live List.mem_cons_self
  have hdepth := hg.variant variants hoccurs variant (List.mem_of_getElem? hvariant)
  obtain ⟨live', hturn, hlfits, hlshaped, hlbare⟩ := exists_turns_variant crumbs hkind hliveShaped
    (hbareParts live List.mem_cons_self) hvariant hdepth
  have hmake : g.Turns crumbs (.node node [live']) (.node node [target]) :=
    hparts target List.mem_cons_self live' hlshaped hlbare (fits_trans (fits_symm hlfits) hvfits)
      ⟨node, [], []⟩ crumbs
  refine (hturn.trans hmake).trans ?_
  exact turns_wanted (by simp [hwkind]) (hkind.trans hwkind.symm) hnode hwbare

theorem turns_list (hg : g.Buildable) {element : Kind} (hoccurs : g.Occurs (.list element))
    (hkind : node.kind = .list element) (hwkind : wanted.kind = .list element)
    (hbare : node.Bare) (hwshaped : g.Shaped (.node wanted wantedParts)) (hwbare : wanted.Bare)
    (hparts : ∀ t ∈ wantedParts, g.Makes t) :
    g.Turns crumbs (.node node parts) (.node wanted wantedParts) := by
  have hfill : g.Turns crumbs (.node node []) (.node node wantedParts) := by
    refine turns_fill hkind (hg.element element hoccurs) [] fun t ht s hs hshaped hbare ↦ ?_
    refine hparts t ht s hshaped hbare ?_
    rw [hs]
    exact ((shaped_list_iff hwkind).mp hwshaped t ht).1
  refine ((turns_clear hkind parts).trans hfill).trans ?_
  exact turns_wanted (by simp [hwkind]) (hkind.trans hwkind.symm) hbare hwbare

end Wanted

/-- A kind that a node of a formula may have: an operator, or one that occurs in the grammar. -/
def Stands (g : Grammar) (kind : Kind) : Prop :=
  (∃ name, kind = .operator name) ∨ g.Occurs kind

theorem Occurs.stands_of_fits {declared found : Kind} (h : g.Occurs declared)
    (hfits : g.fits declared found = true) : g.Stands found := by
  rcases fits_cases hfits with rfl | hoperator
  · exact Or.inr h
  · exact Or.inl hoperator

theorem Stands.part {kind : Kind} {kinds : List Kind} (h : g.Stands kind)
    (haccepts : g.Accepts kind kinds) {found : Kind} (hfound : found ∈ kinds) : g.Stands found := by
  cases kind with
  | atom type =>
    rw [Accepts] at haccepts
    rw [haccepts] at hfound
    cases hfound
  | operator name =>
    obtain ⟨op, hop, hfits⟩ := haccepts
    obtain ⟨arg, harg, hfit⟩ := exists_left_of_forall₂ hfits hfound
    have hoccurs : g.Occurs arg.kind := ⟨op, List.mem_of_find?_eq_some hop, arg, harg, .refl⟩
    exact hoccurs.stands_of_fits hfit
  | union variants =>
    obtain ⟨live, rfl, variant, hvariant, hfit⟩ := haccepts
    rw [List.mem_singleton] at hfound
    rcases h with ⟨name, hname⟩ | h
    · cases hname
    · rw [hfound]
      exact (h.of_within (.variant hvariant .refl)).stands_of_fits hfit
  | list element =>
    rcases h with ⟨name, hname⟩ | h
    · cases hname
    · exact (h.of_within (.element .refl)).stands_of_fits (haccepts found hfound)

/-- **Edits make every formula.** A part turns into any coherent formula of the right shape that it
fits; at the root it is enough that both are operators. -/
theorem Shaped.turns (hg : g.Buildable) {t : FormulaTree} (ht : g.Shaped t)
    (hcoherent : t.All Node.Coherent) (hstands : g.Stands t.value.kind) {s : FormulaTree}
    (hs : g.Shaped s) (hbare : s.All Node.Bare)
    (hplace : g.fits s.value.kind t.value.kind = true ∨
      crumbs = [] ∧ ∃ current name, s.value.kind = .operator current ∧
        t.value.kind = .operator name) :
    g.Turns crumbs s t := by
  induction ht generalizing s crumbs with
  | @node wanted wantedParts haccepts hshaped ih =>
    obtain ⟨hwanted, hwantedParts⟩ := Tree.all_node_iff.mp hcoherent
    have hwshaped : g.Shaped (.node wanted wantedParts) := .node haccepts hshaped
    have hparts : ∀ part ∈ wantedParts, g.Makes part := by
      intro part hpart s hs hbare hfits crumb crumbs
      have hpartStands : g.Stands part.value.kind :=
        hstands.part haccepts (List.mem_map_of_mem hpart)
      exact ih part hpart (hwantedParts part hpart) hpartStands hs hbare (Or.inl hfits)
    obtain ⟨node, parts⟩ := s
    rw [Tree.value_node, Tree.value_node] at hplace
    rw [Tree.value_node] at hstands
    cases hkind : wanted.kind with
    | operator name =>
      obtain ⟨current, hcurrent, hplace⟩ : ∃ current, node.kind = .operator current ∧
          (crumbs = [] ∨ g.fits (.operator current) (.operator name) = true) := by
        rw [hkind] at hplace
        rcases hplace with hfits | ⟨hroot, current, _, hcurrent, _⟩
        · rcases fits_iff.mp hfits with heq | ⟨current, _, hcurrent, _, _⟩
          · exact ⟨name, heq, Or.inr (fits_refl _)⟩
          · exact ⟨current, hcurrent, Or.inr (hcurrent ▸ hfits)⟩
        · exact ⟨current, hcurrent, Or.inl hroot⟩
      exact turns_operator hg hcurrent hkind hs hbare hwshaped hwanted.bare hplace hparts
    | atom type =>
      have hnode : node.kind = .atom type := by simpa [hkind, fits_iff] using hplace
      rw [hkind, Accepts] at haccepts
      obtain ⟨hempty, _⟩ := shaped_node_iff.mp hs
      rw [hnode, Accepts] at hempty
      rw [List.map_eq_nil_iff.mp haccepts, List.map_eq_nil_iff.mp hempty]
      exact turns_atom [] hnode hkind hwanted
    | union variants =>
      have hnode : node.kind = .union variants := by simpa [hkind, fits_iff] using hplace
      have hoccurs : g.Occurs (.union variants) := by simpa [hkind, Stands] using hstands
      exact turns_union hg hoccurs hnode hkind hs hbare hwshaped hwanted.bare hparts
    | list element =>
      have hnode : node.kind = .list element := by simpa [hkind, fits_iff] using hplace
      have hoccurs : g.Occurs (.list element) := by simpa [hkind, Stands] using hstands
      exact turns_list hg hoccurs hnode hkind (Tree.all_node_iff.mp hbare).1 hwshaped hwanted.bare
        hparts

/-! ## Edits of an editor -/

theorem editAt_unchanged {c : Cursor Node} {edit : Edit} {step : EditStep}
    (h : g.editAt c edit = .ok step) (hchanged : step.changed = false) : step.cursor = c := by
  cases edit with
  | selectOperator name =>
    rcases selectOperator_cases h with hstays | ⟨_, _, _, _, _, rfl⟩
    · exact hstays.1
    · cases hchanged
  | selectVariant selector =>
    rcases selectVariant_cases h with hstays | ⟨_, _, _, _, _, _, rfl⟩
    · exact hstays.1
    · cases hchanged
  | setInput raw =>
    cases h
    rcases setInput_cases c raw with hstays | hdone
    · exact hstays.1
    · rw [hdone] at hchanged
      cases hchanged
  | listAdd =>
    rcases listAdd_cases h with hstays | ⟨_, _, _, ⟨_, rfl⟩ | ⟨_, rfl⟩⟩
    · exact hstays.1
    · cases hchanged
    · cases hchanged
  | listRemove =>
    cases h
    rcases listRemove_cases c with hstays | ⟨_, _, hdone⟩
    · exact hstays.1
    · rw [hdone] at hchanged
      cases hchanged
  | toggleOpen =>
    cases h
    cases hchanged

theorem applyEdit_unchanged {t t' : FormulaTree} {event : EditEvent} {outcome : Outcome}
    (h : g.applyEdit t event = .ok (t', outcome)) (hchanged : outcome.changed = false) :
    t' = t := by
  obtain ⟨c, step, rfl, hstep, rfl, rfl⟩ := applyEdit_eq_ok h
  rw [editAt_unchanged hstep hchanged]

end Grammar

namespace Editor

variable {g : Grammar} {e : Editor}

/-- Edits one after the other, each of which applies. -/
inductive Edited : Editor → List EditEvent → Editor → Prop
  | nil (e : Editor) : Edited e [] e
  | cons {e e' e'' : Editor} {event : EditEvent} {events : List EditEvent} {outcome : Outcome}
      (applies : e.apply event = .ok (outcome, e')) (hits : outcome.miss = none)
      (rest : Edited e' events e'') : Edited e (event :: events) e''

theorem exists_apply (hgrammar : e.grammar = g) {t : FormulaTree} (h : g.Edits e.tree t) :
    ∃ event outcome e', e.apply event = .ok (outcome, e') ∧ outcome.miss = none ∧
      e'.grammar = g ∧ e'.tree = t := by
  obtain ⟨event, outcome, happly, hmiss⟩ := h
  subst hgrammar
  refine ⟨event, outcome, _, by rw [apply, happly], hmiss, ?_⟩
  cases hchanged : outcome.changed with
  | true => exact ⟨rfl, rfl⟩
  | false => exact ⟨rfl, (Grammar.applyEdit_unchanged happly hchanged).symm⟩

theorem exists_edited (hgrammar : e.grammar = g) {t : FormulaTree}
    (h : Relation.ReflTransGen g.Edits e.tree t) :
    ∃ events e', Edited e events e' ∧ e'.tree = t := by
  generalize htree : e.tree = s at h
  induction h using Relation.ReflTransGen.head_induction_on generalizing e with
  | refl => exact ⟨[], e, .nil e, htree⟩
  | head hedits _ ih =>
    rw [← htree] at hedits
    obtain ⟨event, outcome, e', happly, hmiss, hgrammar', htree'⟩ := exists_apply hgrammar hedits
    obtain ⟨events, e'', hedited, hfinal⟩ := ih hgrammar' htree'
    exact ⟨event :: events, e'', .cons happly hmiss hedited, hfinal⟩

/-- **Editing is complete.** In a loaded grammar whose list elements and union variants all have
bounded defaults, every coherent formula that passes the check can be made from where an editor
starts, by edits none of which fails or misses. -/
theorem exists_edited_of_valid (description : Json) {errors : List GrammarError} {g : Grammar}
    (hload : Grammar.ofJson description = (errors, g))
    (helement : ∀ element, g.Occurs (.list element) → ∃ n ≤ maxDepth, g.HasDepth element n)
    (hvariant : ∀ variants, g.Occurs (.union variants) → ∀ variant ∈ variants,
      ∃ n ≤ maxDepth, g.HasDepth variant n)
    {t : FormulaTree} (hvalid : g.Valid t) (hcoherent : t.All Node.Coherent)
    {name : Option String} {e : Editor} (he : launch g name = .ok e) :
    ∃ events e', Edited e events e' ∧ e'.tree = t := by
  obtain rfl : (Grammar.ofJson description).2 = g := congrArg Prod.snd hload
  have hg : (Grammar.ofJson description).2.Buildable :=
    ⟨Grammar.ofJson_hasDepth description, helement, hvariant⟩
  obtain ⟨hfault, op, _, hroot⟩ := hvalid
  obtain ⟨start, s, hs, rfl⟩ := launch_eq_ok he
  have hbuild := (Grammar.freshOperator_eq_ok_iff.mp hs).2
  have hturns : (Grammar.ofJson description).2.Turns [] s t := by
    refine (Grammar.faultIn?_eq_none_iff.mp hfault).turns hg hcoherent (Or.inl ⟨op.name, hroot⟩)
      (Grammar.buildWithin_shaped hbuild) (Grammar.buildWithin_bare hbuild) (Or.inr ⟨rfl, ?_⟩)
    exact ⟨start, op.name, Grammar.buildWithin_kind hbuild, hroot⟩
  exact exists_edited rfl hturns

theorem occurs_logic {kind : Kind} (h : (Grammar.ofJson logic).2.Occurs kind) :
    kind = .atom .bool ∨ kind = .operator "flag" ∨ kind = .list (.operator "flag") ∨
      kind = .union [.atom .bool, .operator "flag"] := by
  have hops : (Grammar.ofJson logic).2.operators =
      [⟨"flag", some "Term", [⟨"value", .atom .bool, none⟩]⟩,
        ⟨"all", some "Term", [⟨"terms", .list (.operator "flag"), none⟩]⟩,
        ⟨"test", none, [⟨"of", .union [.atom .bool, .operator "flag"], none⟩]⟩] := by
    decide +kernel
  obtain ⟨op, hop, arg, harg, hwithin⟩ := h
  rw [hops] at hop
  simp only [List.mem_cons, List.not_mem_nil, or_false] at hop
  rcases hop with rfl | rfl | rfl
  · obtain rfl := List.mem_singleton.mp harg
    cases hwithin
    exact Or.inl rfl
  · obtain rfl := List.mem_singleton.mp harg
    rcases hwithin with _ | ⟨⟨⟩⟩
    · simp
    · simp
  · obtain rfl := List.mem_singleton.mp harg
    rcases hwithin with _ | _ | ⟨hmem, hwithin⟩
    · simp
    · simp only [List.mem_cons, List.not_mem_nil, or_false] at hmem
      rcases hmem with rfl | rfl
      · cases hwithin
        simp
      · cases hwithin
        simp

/-- A test of a folded conjunction of one flag that holds a text that is no truth value. -/
def foldedTest : FormulaTree :=
  .node (.plain (.operator "test"))
    [.node (.plain (.union [.atom .bool, .operator "flag"]))
      [.node ⟨.operator "all", "", ⟨false, none⟩⟩
        [.node (.plain (.list (.operator "flag")))
          [.node (.plain (.operator "flag"))
            [.leaf ⟨.atom .bool, "maybe",
              ⟨true, some (Atom.Rejection.notBoolean "maybe").message⟩⟩]]]]]

theorem exists_edited_foldedTest :
    let g := (Grammar.ofJson logic).2
    let e := ofTree g (.node (.plain (.operator "flag")) [.leaf (.ofAtom .bool "false")])
    g.Valid foldedTest ∧ foldedTest.All Node.Coherent ∧ launch g none = .ok e ∧
      ∃ events e', Edited e events e' ∧ e'.tree = foldedTest := by
  intro g e
  have hflag : ∃ n ≤ maxDepth, g.HasDepth (.operator "flag") n :=
    Grammar.ofJson_hasDepth logic "flag" (by decide +kernel)
  have hbool : ∃ n ≤ maxDepth, g.HasDepth (.atom .bool) n := ⟨1, by decide, .atom .bool⟩
  have helement : ∀ element, g.Occurs (.list element) → ∃ n ≤ maxDepth, g.HasDepth element n := by
    intro element hoccurs
    obtain rfl : element = .operator "flag" := by simpa using occurs_logic hoccurs
    exact hflag
  have hvariant : ∀ variants, g.Occurs (.union variants) → ∀ variant ∈ variants,
      ∃ n ≤ maxDepth, g.HasDepth variant n := by
    intro variants hoccurs variant hmem
    obtain rfl : variants = [.atom .bool, .operator "flag"] := by simpa using occurs_logic hoccurs
    simp only [List.mem_cons, List.not_mem_nil, or_false] at hmem
    rcases hmem with rfl | rfl
    · exact hbool
    · exact hflag
  have hvalid : g.Valid foldedTest := ⟨by decide +kernel, by decide +kernel⟩
  have hcoherent : foldedTest.All Node.Coherent := by
    have hcheck : Atom.check .bool "maybe" = .error (.notBoolean "maybe") := by decide +kernel
    simp [foldedTest, Tree.leaf, Tree.all_node_iff, Node.Coherent, Node.plain, Flags.default,
      hcheck]
  have hlaunch : launch g none = .ok e := by decide +kernel
  exact ⟨hvalid, hcoherent, hlaunch,
    exists_edited_of_valid logic Prod.mk.eta.symm helement hvariant hvalid hcoherent hlaunch⟩

end Editor

end FormulaEdit
