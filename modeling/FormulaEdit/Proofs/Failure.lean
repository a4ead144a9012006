import FormulaEdit.Proofs.Reach
import FormulaEdit.Proofs.Spot

/-!
# When an edit fails

An edit fails if its path leads nowhere, or if a part that it has to build does not come out. The
parts that edits build are operators, elements of lists and variants of unions. Operators of a
loaded grammar can be built, since loading leaves out the others. But loading measures defaults
only: nothing bounds the depth of what a list may hold or of a variant that is not the first.

Kinds that occur in a loaded grammar use its own operators and have no empty union, so they have a
default depth and the only way to fail is to exceed the bound
(`Grammar.Consistent.freshKind_eq_error_iff`). The kinds that edits build are of this sort, because
what stands in a formula of the right shape occurs in the grammar (`Grammar.PutsIn.occurs`).
-/

namespace FormulaEdit

/-! ## The node at a path -/

namespace Cursor

variable {α : Type}

/-- To a path that leads somewhere there is a cursor, and a descent from the root finds it. -/
theorem descend_ofTree (t : Tree α) (path : NodePath) :
    (∃ c, (ofTree t).descend path = .ok c ∧ c.tree = t ∧ c.path = path ∧
      t.get? path = some c.focus) ∨
      (∃ c, (ofTree t).descend path = .error c) ∧ t.get? path = none := by
  rcases descend_spot (ofTree t) path with ⟨c, hc, hspot⟩ | ⟨c, steps, hc, hsteps, _, hend⟩
  · have htree : c.tree = t := congrArg Spot.tree hspot
    have hpath : c.path = path := congrArg Spot.path hspot
    refine Or.inl ⟨c, hc, htree, hpath, ?_⟩
    rw [← htree, ← hpath, get?_path]
  · refine Or.inr ⟨⟨c, hc⟩, ?_⟩
    rw [has_spot_iff, Bool.not_eq_true, Option.isSome_eq_false_iff, Option.isNone_iff_eq_none]
      at hend
    have hsplit := t.get?_append (path.take (steps + 1)) (path.drop (steps + 1))
    rw [List.take_append_drop] at hsplit
    rw [hsplit]
    exact congrArg (Option.bind · _) hend

theorem exists_of_get? {t part : Tree α} {path : NodePath} (h : t.get? path = some part) :
    ∃ c : Cursor α, c.tree = t ∧ c.path = path ∧ c.focus = part := by
  rcases descend_ofTree t path with ⟨c, _, htree, hpath, hfocus⟩ | ⟨_, hnone⟩
  · exact ⟨c, htree, hpath, Option.some.inj (hfocus.symm.trans h)⟩
  · rw [hnone] at h
    cases h

theorem value?_path (c : Cursor α) : c.tree.value? c.path = some c.value := by
  rw [Tree.value?, get?_path]
  rfl

theorem parent?_eq_some {c : Cursor α} {parent : α} (h : c.parent? = some parent) :
    ∃ path index, c.path = path ++ [index] ∧ c.tree.value? path = some parent := by
  obtain ⟨t, crumbs⟩ := c
  cases crumbs with
  | nil => cases h
  | cons crumb crumbs =>
    obtain rfl : crumb.parent = parent := Option.some.inj h
    exact ⟨_, _, path_cons t crumb crumbs, value?_path ⟨crumb.close t, crumbs⟩⟩

theorem parent?_of_path {c : Cursor α} {path : NodePath} {index : Nat} {parent : α}
    (hpath : c.path = path ++ [index]) (h : c.tree.value? path = some parent) :
    c.parent? = some parent := by
  obtain ⟨t, crumbs⟩ := c
  cases crumbs with
  | nil => simp [Cursor.path] at hpath
  | cons crumb crumbs =>
    rw [path_cons] at hpath
    obtain ⟨rfl, _⟩ := List.append_inj' hpath rfl
    rw [tree_cons, value?_path] at h
    exact h

end Cursor

namespace Grammar

variable {g : Grammar}

theorem applyEdit_of_get?_eq_none {t : FormulaTree} {event : EditEvent}
    (h : t.get? event.path = none) : g.applyEdit t event = .error (.invalidPath event.path) := by
  rcases Cursor.descend_ofTree t event.path with ⟨c, _, _, _, hsome⟩ | ⟨⟨c, hc⟩, _⟩
  · rw [h] at hsome
    cases hsome
  · rw [applyEdit, hc]

theorem applyEdit_path (c : Cursor Node) (edit : Edit) :
    g.applyEdit c.tree ⟨c.path, edit⟩ =
      (g.editAt c edit).map fun step ↦ (step.cursor.tree, step.outcome) := by
  rw [applyEdit, Cursor.descend_path]
  dsimp only
  cases g.editAt c edit with
  | ok step => rfl
  | error error => rfl

/-! ## Kinds that stand in a formula -/

theorem Framed.stands {kind : Kind} {crumbs : List (Crumb Node)} (h : g.Framed kind crumbs) :
    g.Stands kind := by
  induction crumbs generalizing kind with
  | nil => exact Or.inl h
  | cons crumb crumbs ih => exact (ih h.2.2).part h.1 (by simp)

theorem Formed.stands {t : FormulaTree} (h : g.Formed t) {path : NodePath} {node : Node}
    (hnode : t.value? path = some node) : g.Stands node.kind := by
  obtain ⟨part, hpart, rfl⟩ := Option.map_eq_some_iff.mp hnode
  obtain ⟨c, rfl, rfl, rfl⟩ := Cursor.exists_of_get? hpart
  exact (formed_tree_iff.mp h).2.stands

/-- What editing relies on in a grammar. -/
structure Consistent (g : Grammar) : Prop where
  /-- Operators have distinct names. -/
  nodup : g.names.Nodup
  /-- The kinds that occur use operators of the grammar, and no union is empty. -/
  closed : ∀ kind, g.Occurs kind → (∀ name, kind = .operator name → name ∈ g.names) ∧
    kind ≠ .union []
  /-- Operators have a bounded default. -/
  operator : ∀ name ∈ g.names, ∃ n ≤ maxDepth, g.HasDepth (.operator name) n

theorem ofJson_consistent (description : Json) : (ofJson description).2.Consistent where
  nodup := ofJson_nodup description
  closed := by
    rintro kind ⟨op, hop, arg, harg, hwithin⟩
    exact (ofJson_loaded description).closed op hop arg harg kind hwithin
  operator := ofJson_hasDepth description

/-! ## What can go wrong with a new part -/

theorem mapM_eq_error {α β ε : Type} {f : α → Except ε β} {xs : List α} {error : ε}
    (h : xs.mapM f = .error error) : ∃ x ∈ xs, f x = .error error := by
  induction xs with
  | nil => cases h
  | cons x xs ih =>
    rw [List.mapM_cons] at h
    cases hx : f x with
    | error fault =>
      rw [hx] at h
      cases h
      exact ⟨x, List.mem_cons_self, hx⟩
    | ok y =>
      cases hxs : xs.mapM f with
      | error fault =>
        rw [hx, hxs] at h
        cases h
        obtain ⟨z, hz, hfault⟩ := ih hxs
        exact ⟨z, List.mem_cons_of_mem _ hz, hfault⟩
      | ok ys =>
        rw [hx, hxs] at h
        cases h

theorem exists_arg_of_buildWithin_eq_error {levels remaining : Nat} {name : String}
    {op : Operator Kind} {initial : Option String} {fault : BuildFault}
    (hop : g.find? name = some op)
    (h : g.buildWithin levels (remaining + 1) (.operator name) initial = .error fault) :
    ∃ arg ∈ op.args, g.buildWithin levels remaining arg.kind arg.initial = .error fault := by
  rw [buildWithin, hop] at h
  dsimp only at h
  cases hparts : op.args.mapM fun arg ↦ g.buildWithin levels remaining arg.kind arg.initial with
  | ok parts =>
    rw [hparts] at h
    cases h
  | error inner =>
    rw [hparts] at h
    cases h
    exact mapM_eq_error hparts

section New

variable (hg : g.Consistent)

include hg

theorem Consistent.buildWithin_eq_error {levels remaining : Nat} {kind : Kind}
    {initial : Option String} {fault : BuildFault} (hkind : g.Occurs kind)
    (h : g.buildWithin levels remaining kind initial = .error fault) :
    ∃ inner, fault = .tooDeep inner levels := by
  induction remaining generalizing kind initial with
  | zero =>
    cases h
    exact ⟨kind, rfl⟩
  | succ remaining ih =>
    obtain ⟨hknown, hunion⟩ := hg.closed kind hkind
    match kind with
    | .atom type => cases h
    | .list element => cases h
    | .union [] => exact absurd rfl hunion
    | .union (first :: rest) =>
      rw [buildWithin] at h
      cases hfirst : g.buildWithin levels remaining first initial with
      | ok live =>
        rw [hfirst] at h
        cases h
      | error inner =>
        rw [hfirst] at h
        cases h
        exact ih (hkind.of_within (.variant List.mem_cons_self .refl)) hfirst
    | .operator name =>
      obtain ⟨op, hop⟩ : ∃ op, g.find? name = some op := by
        rw [← Option.isSome_iff_exists]
        exact mem_names_iff_has.mp (hknown name rfl)
      obtain ⟨arg, harg, hfault⟩ := exists_arg_of_buildWithin_eq_error hop h
      exact ih ⟨op, List.mem_of_find?_eq_some hop, arg, harg, .refl⟩ hfault

/-- Every kind that occurs has a default depth, bounded or not. -/
theorem Consistent.exists_hasDepth : (kind : Kind) → g.Occurs kind → ∃ n, g.HasDepth kind n
  | .atom type, _ => ⟨1, .atom type⟩
  | .list element, _ => ⟨1, .list element⟩
  | .operator name, hkind => by
    obtain ⟨n, _, hn⟩ := hg.operator name ((hg.closed _ hkind).1 name rfl)
    exact ⟨n, hn⟩
  | .union [], hkind => absurd rfl (hg.closed _ hkind).2
  | .union (first :: rest), hkind => by
    obtain ⟨n, hn⟩ := Consistent.exists_hasDepth first
      (hkind.of_within (.variant List.mem_cons_self .refl))
    exact ⟨n + 1, .union rest hn⟩

/-- **A new part fails to come out exactly if it is too deep**, and says so. -/
theorem Consistent.freshKind_eq_error_iff {kind : Kind} (hkind : g.Occurs kind) :
    ((∃ error, g.freshKind kind = .error error) ↔ ∃ n, g.HasDepth kind n ∧ maxDepth < n) ∧
      ∀ error, g.freshKind kind = .error error →
        ∃ inner, error = .build (.tooDeep inner maxDepth) := by
  have hok : (∃ t, g.freshKind kind = .ok t) ↔ ∃ n ≤ maxDepth, g.HasDepth kind n := by
    rw [← build_isOk_iff]
    exact exists_congr fun t ↦ freshKind_eq_ok_iff
  obtain ⟨depth, hdepth⟩ := hg.exists_hasDepth kind hkind
  refine ⟨⟨?_, ?_⟩, ?_⟩
  · rintro ⟨error, herror⟩
    refine ⟨depth, hdepth, Nat.lt_of_not_le fun hle ↦ ?_⟩
    obtain ⟨t, ht⟩ := hok.mpr ⟨depth, hle, hdepth⟩
    rw [herror] at ht
    cases ht
  · rintro ⟨n, hn, hlt⟩
    cases hfresh : g.freshKind kind with
    | error error => exact ⟨error, rfl⟩
    | ok t =>
      obtain ⟨m, hm, hd⟩ := hok.mp ⟨t, hfresh⟩
      rw [hd.unique hn] at hm
      exact absurd hlt (Nat.not_lt.mpr hm)
  · intro error herror
    rw [freshKind] at herror
    cases hbuild : g.build maxDepth kind with
    | ok t =>
      rw [hbuild] at herror
      cases herror
    | error fault =>
      rw [hbuild] at herror
      cases herror
      obtain ⟨inner, rfl⟩ := hg.buildWithin_eq_error hkind hbuild
      exact ⟨inner, rfl⟩

theorem Consistent.exists_freshOperator {name : String} (hname : g.has name = true) :
    ∃ t, g.freshOperator name = .ok t := by
  obtain ⟨t, ht⟩ := build_isOk_iff.mpr (hg.operator name (mem_names_iff_has.mpr hname))
  exact ⟨t, freshOperator_eq_ok_iff.mpr ⟨hname, ht⟩⟩

theorem Consistent.exists_selectOperator (c : Cursor Node) (name : String) :
    ∃ step, g.selectOperator c name = .ok step := by
  rw [selectOperator]
  split
  · split_ifs with _ hhas
    · exact ⟨_, rfl⟩
    · exact ⟨_, rfl⟩
    · exact ⟨_, rfl⟩
    · obtain ⟨t, ht⟩ := hg.exists_freshOperator (by simpa using hhas)
      rw [ht]
      exact ⟨_, rfl⟩
  · exact ⟨_, rfl⟩

end New

/-! ## What an edit builds -/

def liveIn? (g : Grammar) (variants : List Kind) (union : FormulaTree) : Option Nat :=
  union.children.head?.bind fun part ↦ g.liveVariant? variants part.value.kind

/-- The kind of the element or variant that an edit has to build. -/
inductive PutsIn (g : Grammar) (t : FormulaTree) : EditEvent → Kind → Prop
  /-- An element at the end of a list. -/
  | pushed {path : NodePath} {node : Node} {element : Kind} (here : t.value? path = some node)
      (list : node.kind = .list element) : PutsIn g t ⟨path, .listAdd⟩ element
  /-- An element after another one that is no list itself. -/
  | inserted {path : NodePath} {index : Nat} {node parent : Node} {element : Kind}
      (here : t.value? (path ++ [index]) = some node) (no_list : ∀ kind, node.kind ≠ .list kind)
      (above : t.value? path = some parent) (list : parent.kind = .list element) :
      PutsIn g t ⟨path ++ [index], .listAdd⟩ element
  /-- A variant that is not the live one. -/
  | selected {path : NodePath} {part : FormulaTree} {variants : List Kind} {selector : String}
      {index : Nat} {variant : Kind} (here : t.get? path = some part)
      (union : part.value.kind = .union variants)
      (resolved : resolveVariant? variants selector = some index)
      (listed : variants[index]? = some variant)
      (not_live : g.liveIn? variants part ≠ some index) :
      PutsIn g t ⟨path, .selectVariant selector⟩ variant

theorem selectVariant_eq_error_iff {c : Cursor Node} {selector : String} {error : EditorError} :
    g.selectVariant c selector = .error error ↔ ∃ variants index variant,
      c.value.kind = .union variants ∧ resolveVariant? variants selector = some index ∧
        variants[index]? = some variant ∧ g.liveIn? variants c.focus ≠ some index ∧
        g.freshKind variant = .error error := by
  rw [selectVariant]
  constructor
  · intro h
    split at h
    · next variants hkind =>
      split at h
      · cases h
      · next index variant hindex =>
        obtain ⟨i, hi, hlisted⟩ := Option.bind_eq_some_iff.mp hindex
        obtain ⟨v, hv, heq⟩ := Option.map_eq_some_iff.mp hlisted
        obtain ⟨rfl, rfl⟩ := Prod.mk.inj heq
        dsimp only at h
        split_ifs at h with hlive
        split at h
        · cases h
        · next hfresh =>
          cases h
          exact ⟨variants, i, v, hkind, hi, hv, hlive, hfresh⟩
    · cases h
  · rintro ⟨variants, index, variant, hkind, hi, hv, hlive, hfresh⟩
    rw [liveIn?] at hlive
    simp only [hkind, hi, hv, Option.bind_some, Option.map_some, if_neg hlive, hfresh]

theorem listAdd_eq_error_iff {c : Cursor Node} {error : EditorError} :
    g.listAdd c = .error error ↔ ∃ element,
      (c.value.kind = .list element ∨ (∀ kind, c.value.kind ≠ .list kind) ∧
        c.parent?.map Node.kind = some (.list element)) ∧ g.freshKind element = .error error := by
  rw [listAdd]
  constructor
  · intro h
    split at h
    · next element hkind =>
      split at h
      · cases h
      · next hfresh =>
        cases h
        exact ⟨element, Or.inl hkind, hfresh⟩
    · next element hparent hno =>
      split at h
      · cases h
      · next hfresh =>
        cases h
        exact ⟨element, Or.inr ⟨hno, hparent⟩, hfresh⟩
    · cases h
  · rintro ⟨element, hkind | ⟨hno, hparent⟩, hfresh⟩
    · simp only [hkind, hfresh]
    · split
      · next other hkind => exact absurd hkind (hno other)
      · next other hother _ =>
        obtain rfl : element = other := by simpa [hparent] using hother
        simp only [hfresh]
      · next hnone => exact absurd hparent (hnone element)

/-- **An edit fails exactly if what it puts in cannot be built.** -/
theorem Consistent.editAt_eq_error_iff (hg : g.Consistent) {c : Cursor Node} {edit : Edit}
    {error : EditorError} :
    g.editAt c edit = .error error ↔
      ∃ kind, g.PutsIn c.tree ⟨c.path, edit⟩ kind ∧ g.freshKind kind = .error error := by
  constructor
  · intro h
    cases edit with
    | selectOperator name =>
      obtain ⟨step, hstep⟩ := hg.exists_selectOperator c name
      rw [editAt, hstep] at h
      cases h
    | selectVariant selector =>
      obtain ⟨variants, index, variant, hkind, hi, hv, hlive, hfresh⟩ :=
        selectVariant_eq_error_iff.mp h
      exact ⟨variant, .selected c.get?_path hkind hi hv hlive, hfresh⟩
    | setInput raw => cases h
    | listAdd =>
      obtain ⟨element, hkind | ⟨hno, hparent⟩, hfresh⟩ := listAdd_eq_error_iff.mp h
      · exact ⟨element, .pushed c.value?_path hkind, hfresh⟩
      · obtain ⟨parent, hparent, hlist⟩ := Option.map_eq_some_iff.mp hparent
        obtain ⟨path, index, hpath, habove⟩ := Cursor.parent?_eq_some hparent
        have hhere := c.value?_path
        rw [hpath] at hhere ⊢
        exact ⟨element, .inserted hhere hno habove hlist, hfresh⟩
    | listRemove => cases h
    | toggleOpen => cases h
  · rintro ⟨kind, hputs, hfresh⟩
    generalize hevent : (⟨c.path, edit⟩ : EditEvent) = event at hputs
    cases hputs with
    | pushed here list =>
      obtain ⟨rfl, rfl⟩ := EditEvent.mk.inj hevent
      obtain rfl := Option.some.inj (c.value?_path.symm.trans here)
      exact listAdd_eq_error_iff.mpr ⟨kind, Or.inl list, hfresh⟩
    | inserted here no_list above list =>
      obtain ⟨hpath, rfl⟩ := EditEvent.mk.inj hevent
      rw [← hpath, c.value?_path] at here
      obtain rfl := Option.some.inj here
      have hparent := Cursor.parent?_of_path hpath above
      exact listAdd_eq_error_iff.mpr ⟨kind, Or.inr ⟨no_list, by rw [hparent, ← list]; rfl⟩, hfresh⟩
    | selected here union resolved listed not_live =>
      obtain ⟨rfl, rfl⟩ := EditEvent.mk.inj hevent
      obtain rfl := Option.some.inj (c.get?_path.symm.trans here)
      exact selectVariant_eq_error_iff.mpr
        ⟨_, _, _, union, resolved, listed, not_live, hfresh⟩

theorem PutsIn.occurs {t : FormulaTree} {event : EditEvent} {kind : Kind}
    (h : g.PutsIn t event kind) (ht : g.Formed t) : g.Occurs kind := by
  cases h with
  | pushed here list =>
    have hstands := ht.stands here
    rw [list] at hstands
    exact (hstands.resolve_left (by simp)).of_within (.element .refl)
  | inserted _ _ above list =>
    have hstands := ht.stands above
    rw [list] at hstands
    exact (hstands.resolve_left (by simp)).of_within (.element .refl)
  | selected here union _ listed _ =>
    have hstands := ht.stands (Option.map_eq_some_iff.mpr ⟨_, here, rfl⟩)
    rw [union] at hstands
    exact (hstands.resolve_left (by simp)).of_within
      (.variant (List.mem_of_getElem? listed) .refl)

theorem Consistent.applyEdit_eq_error_iff (hg : g.Consistent) {t : FormulaTree} (ht : g.Formed t)
    {event : EditEvent} (hnode : t.get? event.path ≠ none) :
    ((∃ error, g.applyEdit t event = .error error) ↔
      ∃ kind n, g.PutsIn t event kind ∧ g.HasDepth kind n ∧ maxDepth < n) ∧
      ∀ error, g.applyEdit t event = .error error →
        ∃ inner, error = .build (.tooDeep inner maxDepth) := by
  obtain ⟨part, hpart⟩ := Option.ne_none_iff_exists'.mp hnode
  obtain ⟨path, edit⟩ := event
  obtain ⟨c, rfl, rfl, rfl⟩ := Cursor.exists_of_get? hpart
  have herror : ∀ error, g.applyEdit c.tree ⟨c.path, edit⟩ = .error error ↔
      ∃ kind, g.PutsIn c.tree ⟨c.path, edit⟩ kind ∧ g.freshKind kind = .error error := by
    intro error
    rw [← hg.editAt_eq_error_iff, applyEdit_path]
    cases g.editAt c edit <;> simp [Except.map]
  constructor
  · constructor
    · rintro ⟨error, h⟩
      obtain ⟨kind, hputs, hfresh⟩ := (herror error).mp h
      obtain ⟨n, hn, hlt⟩ := (hg.freshKind_eq_error_iff (hputs.occurs ht)).1.mp ⟨error, hfresh⟩
      exact ⟨kind, n, hputs, hn, hlt⟩
    · rintro ⟨kind, n, hputs, hn, hlt⟩
      obtain ⟨error, hfresh⟩ := (hg.freshKind_eq_error_iff (hputs.occurs ht)).1.mpr ⟨n, hn, hlt⟩
      exact ⟨error, (herror error).mpr ⟨kind, hputs, hfresh⟩⟩
  · intro error h
    obtain ⟨kind, hputs, hfresh⟩ := (herror error).mp h
    exact (hg.freshKind_eq_error_iff (hputs.occurs ht)).2 error hfresh

end Grammar

/-! ## Editors -/

namespace Editor

variable {g : Grammar} {e : Editor}

/-- An editor that calls lead to from where it starts on a grammar. -/
def Reachable (g : Grammar) (e : Editor) : Prop :=
  ∃ name start startupErrors events, launch g name = .ok start ∧
    e = run { start with startupErrors } events

theorem Reachable.sound (h : Reachable g e) : Sound g e := by
  obtain ⟨name, start, startupErrors, events, hlaunch, rfl⟩ := h
  have hstart := launch_sound hlaunch
  have hnamed : Sound g { start with startupErrors } :=
    ⟨hstart.grammar, hstart.tree, hstart.history⟩
  exact hnamed.run events

theorem Reachable.holds {p : FormulaTree → Prop} (he : Reachable g e) (hp : g.Keeps p) :
    e.Holds p := by
  obtain ⟨name, start, startupErrors, events, hlaunch, rfl⟩ := he
  obtain ⟨_, t, ht, rfl⟩ := launch_eq_ok hlaunch
  have hstart : Holds p { ofTree g t with startupErrors } :=
    ⟨hp.fresh ht, History.holds_empty _ _⟩
  exact Holds.run hp hstart events

theorem Reachable.run (h : Reachable g e) (events : List SessionEvent) :
    Reachable g (e.run events) := by
  obtain ⟨name, start, startupErrors, before, hlaunch, rfl⟩ := h
  exact ⟨name, start, startupErrors, before ++ events, hlaunch, List.foldl_append.symm⟩

theorem launch_reachable {name : Option String} (h : launch g name = .ok e) : Reachable g e := by
  obtain ⟨_, t, _, rfl⟩ := launch_eq_ok h
  exact ⟨name, ofTree g t, [], [], h, rfl⟩

theorem apply_eq_error_iff (e : Editor) (event : EditEvent) (error : EditorError) :
    e.apply event = .error error ↔ e.grammar.applyEdit e.tree event = .error error := by
  rw [apply]
  cases e.grammar.applyEdit e.tree event <;> simp

theorem exists_chooseOperator (hg : e.grammar.Consistent) (name : String) :
    ∃ result, e.chooseOperator name = .ok result := by
  rw [chooseOperator]
  split_ifs with _ hhas
  · exact ⟨_, rfl⟩
  · exact ⟨_, rfl⟩
  · obtain ⟨t, ht⟩ := hg.exists_freshOperator (by simpa using hhas)
    rw [ht]
    exact ⟨_, rfl⟩

/-! ### A variant that is too deep -/

/-- A description of one operator, with an argument of the given kind and a list of its own. -/
def picking (kind : String) : Json :=
  .arr [Grammar.entry "pick" none [("one", kind), ("more", "List[pick]")]]

theorem ofJson_picking {kind : String} {e : KindExpr} (h : KindExpr.read kind = .ok e) :
    Grammar.ofJson (picking kind) = Grammar.settle
      [⟨"pick", none, [⟨"one", e, none⟩, ⟨"more", .list (.name "pick"), none⟩]⟩] := by
  have hname : Text.trim ['p', 'i', 'c', 'k'] ≠ [] := by decide
  have hdeclare : Grammar.declare
      (Grammar.entry "pick" none [("one", kind), ("more", "List[pick]")]) =
      .ok ⟨"pick", none, [⟨"one", kind, none⟩, ⟨"more", "List[pick]", none⟩]⟩ := by
    simp [Grammar.declare, Grammar.operatorRecord, Grammar.argumentRecord, Grammar.entry,
      Json.Record.decode, Json.Record.storeMembers, Json.string, Json.optional, Json.list,
      Grammar.firstBadArgument, Except.map, bind, Except.bind, pure, Except.pure, hname]
  have hlist : KindExpr.read "List[pick]" = .ok (.list (.name "pick")) := by decide +kernel
  simp [Grammar.ofJson, picking, Grammar.entries, Grammar.ofEntries, Grammar.declareAll, hdeclare,
    Grammar.draftAll, Grammar.draftArgs, h, hlist]

/-- The text of a union of which the second variant is unions in one another, as many as a formula
may have levels. -/
def steep : List Char :=
  "Union[bool,".toList ++ (List.replicate maxDepth "Union[".toList).flatten ++ "bool".toList ++
    List.replicate (maxDepth + 1) ']'

theorem read_steep : KindExpr.read (.ofList steep) =
    .ok (.union [.name "bool", Nat.repeat (fun e ↦ .union [e]) maxDepth (.name "bool")]) := by
  have hchars : (String.ofList steep).toList = steep := String.toList_ofList
  rw [KindExpr.read, hchars]
  decide +kernel

theorem hasDepth_repeat (g : Grammar) (n : Nat) :
    g.HasDepth (Nat.repeat (fun kind ↦ .union [kind]) n (.atom .bool)) (n + 1) := by
  induction n with
  | zero => exact .atom .bool
  | succ n ih => exact .union [] ih

/-! ### Edits that fail -/

/-- **When an edit fails.** It finds no node exactly if there is none at its path. At a node it
fails exactly if the element or variant that it has to build is deeper than the bound, which is the
only error then; to select or choose an operator never fails. A session that gets an error has the
same editor as before. -/
theorem apply_fails_iff (description : Json) {errors : List GrammarError} {g : Grammar}
    (hload : Grammar.ofJson description = (errors, g)) {e : Editor} (he : Reachable g e) :
    (∀ event, (e.apply event = .error (.invalidPath event.path) ↔
        e.tree.get? event.path = none) ∧
      (e.tree.get? event.path ≠ none →
        ((∃ error, e.apply event = .error error) ↔
          ∃ kind n, g.PutsIn e.tree event kind ∧ g.HasDepth kind n ∧ maxDepth < n) ∧
        ∀ error, e.apply event = .error error →
          ∃ inner, error = .build (.tooDeep inner maxDepth)) ∧
      ∀ error, e.apply event = .error error → ∀ s : Session, s.editor = e →
        (s.step (.command (.edit event))).editor = e) ∧
      (∀ path name, e.tree.get? path ≠ none →
        ∃ result, e.apply ⟨path, .selectOperator name⟩ = .ok result) ∧
      ∀ name, ∃ result, e.chooseOperator name = .ok result := by
  obtain rfl : (Grammar.ofJson description).2 = g := congrArg Prod.snd hload
  have hg := Grammar.ofJson_consistent description
  have hsound := he.sound
  simp only [apply_eq_error_iff, hsound.grammar]
  refine ⟨fun event ↦ ⟨⟨fun h ↦ ?_, Grammar.applyEdit_of_get?_eq_none⟩,
    hg.applyEdit_eq_error_iff hsound.tree, ?_⟩, ?_, ?_⟩
  · by_contra hnode
    obtain ⟨inner, hinner⟩ := (hg.applyEdit_eq_error_iff hsound.tree hnode).2 _ h
    cases hinner
  · rintro error herror s rfl
    rw [Session.step_editor, after, Session.perform, apply, hsound.grammar, herror]
  · intro path name hnode
    obtain ⟨part, hpart⟩ := Option.ne_none_iff_exists'.mp hnode
    obtain ⟨c, htree, rfl, rfl⟩ := Cursor.exists_of_get? hpart
    obtain ⟨step, hstep⟩ := hg.exists_selectOperator c name
    rw [apply, hsound.grammar, ← htree, Grammar.applyEdit_path, Grammar.editAt, hstep]
    exact ⟨_, rfl⟩
  · exact exists_chooseOperator (hsound.grammar ▸ hg)

/-- Of an element that was added to a list, a variant is too deep to be selected. -/
theorem apply_fails_iff_steep :
    let deep : Kind := Nat.repeat (fun kind ↦ .union [kind]) 64 (.atom .bool)
    let g : Grammar := ⟨[⟨"pick", none, [⟨"one", .union [.atom .bool, deep], none⟩,
      ⟨"more", .list (.operator "pick"), none⟩]⟩]⟩
    let pick := fun more ↦ (.node (.plain (.operator "pick"))
      [.node (.plain (.union [.atom .bool, deep])) [.leaf (.ofAtom .bool "false")],
        .node (.plain (.list (.operator "pick"))) more] : FormulaTree)
    let e := run (ofTree g (pick [])) [.command (.edit ⟨[1], .listAdd⟩)]
    let event : EditEvent := ⟨[1, 0, 0], .selectVariant "1"⟩
    Grammar.ofJson (picking (.ofList steep)) = ([], g) ∧ Reachable g e ∧
      e.tree = pick [pick []] ∧ e.history.past.length = 1 ∧
      e.apply ⟨[7], .listAdd⟩ = .error (.invalidPath [7]) ∧
      (∃ result, e.apply ⟨[1, 0], .selectOperator "test"⟩ = .ok result) ∧
      g.PutsIn e.tree event deep ∧ g.HasDepth deep 65 ∧
      (∃ inner, e.apply event = .error (.build (.tooDeep inner 64))) ∧
      ((Session.start e).step (.command (.edit event))).editor = e ∧
      g.PutsIn e.tree ⟨[1], .listAdd⟩ (.operator "pick") ∧
      ∀ n, g.HasDepth (.operator "pick") n → n ≤ 64 := by
  intro deep g pick e event
  have hload : Grammar.ofJson (picking (.ofList steep)) = ([], g) :=
    (ofJson_picking read_steep).trans (by decide +kernel)
  have hlaunch : launch g (some "pick") = .ok (ofTree g (pick [])) := by decide +kernel
  have he : Reachable g e := (launch_reachable hlaunch).run _
  have htree : e.tree = pick [pick []] := by decide +kernel
  have hresolved : resolveVariant? [.atom .bool, deep] "1" = some 1 := by
    have hword : (Text.trimmed "1").length = 1 := by decide +kernel
    have hlong : deep.text.length ≠ 1 := by
      have hopening : "Union[".length = 6 := by decide
      change (Kind.union [_]).text.length ≠ 1
      rw [Kind.text, String.length_append, String.length_append, hopening]
      omega
    rw [resolveVariant?_of_length_ne]
    · decide +kernel
    · rw [hword, List.forall_mem_cons, List.forall_mem_singleton]
      exact ⟨by decide, hlong⟩
  have hdeep : g.PutsIn e.tree event deep := by
    rw [htree]
    exact .selected rfl rfl hresolved rfl (by decide +kernel)
  have hadded : g.PutsIn e.tree ⟨[1], .listAdd⟩ (.operator "pick") := by
    rw [htree]
    exact .pushed rfl rfl
  obtain ⟨hedit, hselect, _⟩ := apply_fails_iff _ hload he
  have hunion : e.tree.get? event.path ≠ none := by decide +kernel
  have hdepth : g.HasDepth deep 65 := hasDepth_repeat g 64
  obtain ⟨error, herror⟩ := ((hedit event).2.1 hunion).1.mpr ⟨deep, 65, hdeep, hdepth, by decide⟩
  obtain ⟨inner, rfl⟩ := ((hedit event).2.1 hunion).2 error herror
  refine ⟨hload, he, htree, by decide +kernel, (hedit ⟨[7], .listAdd⟩).1.mpr (by decide +kernel),
    hselect [1, 0] "test" (by decide +kernel), hdeep, hdepth, ⟨inner, herror⟩,
    (hedit event).2.2 _ herror _ rfl, hadded, ?_⟩
  intro n hn
  by_contra hlt
  -- a deeper element would make the addition fail, which it does not
  have hlist : e.tree.get? [1] ≠ none := by decide +kernel
  obtain ⟨error, hfails⟩ :=
    ((hedit ⟨[1], .listAdd⟩).2.1 hlist).1.mpr ⟨_, n, hadded, hn, Nat.lt_of_not_le hlt⟩
  have hok : (e.apply ⟨[1], .listAdd⟩).isOk = true := by decide +kernel
  rw [hfails] at hok
  cases hok

end Editor

end FormulaEdit
