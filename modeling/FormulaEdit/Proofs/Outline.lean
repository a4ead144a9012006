import FormulaEdit.Proofs.Offer
import Mathlib.Data.List.Lex

/-!
# What an outline shows

An outline is the list of what is seen of a formula. The walk behind it carries the path along and
does not enter folded nodes, and each view is then made anew from its path alone. So there are two
things to show: which paths the walk comes to, and what a view says of the node at a path.

A walk comes to the nodes all of whose proper ancestors are entered (`Tree.Visits`), each once, in
the lexicographic order of paths. This is the order in which parents come before children and one
child with all that is below it before the next.

A view looks at the parent for the name of a place, and at the part of a union for its live variant.
Each look may find nothing and has a default for this case. In a formula of the right shape the
defaults are not used: an operator has as many parts as arguments, nothing stands below an atom, and
the part of a union fits one of its variants.
-/

namespace FormulaEdit

/-! ## Walks -/

namespace Tree

variable {α : Type} {enter : α → Bool}

/-- Whether a walk comes to a path: there is a node, and those above it are all entered. -/
def Visits (enter : α → Bool) (t : Tree α) (path : NodePath) : Prop :=
  (∃ part, t.get? path = some part) ∧
    ∀ above node, above <+: path → above ≠ path → t.value? above = some node → enter node = true

theorem visits_nil (t : Tree α) : t.Visits enter [] :=
  ⟨⟨t, rfl⟩, fun _ _ habove hne ↦ absurd (List.prefix_nil.mp habove) hne⟩

theorem visits_cons_iff {t : Tree α} {index : Nat} {path : NodePath} :
    t.Visits enter (index :: path) ↔ enter t.value = true ∧
      ∃ child, t.children[index]? = some child ∧ child.Visits enter path := by
  constructor
  · rintro ⟨⟨part, hpart⟩, habove⟩
    rw [get?_cons] at hpart
    obtain ⟨child, hchild, hpart⟩ := Option.bind_eq_some_iff.mp hpart
    refine ⟨habove [] t.value List.nil_prefix (by simp) rfl, child, hchild, ⟨part, hpart⟩, ?_⟩
    intro above node hprefix hne hnode
    refine habove (index :: above) node (List.cons_prefix_cons.mpr ⟨rfl, hprefix⟩) (by simpa) ?_
    rw [value?_cons, hchild, Option.bind_some, hnode]
  · rintro ⟨hroot, child, hchild, ⟨part, hpart⟩, habove⟩
    refine ⟨⟨part, by rw [get?_cons, hchild, Option.bind_some, hpart]⟩, ?_⟩
    intro above node hprefix hne hnode
    rcases List.prefix_cons_iff.mp hprefix with rfl | ⟨above, rfl, hbelow⟩
    · cases hnode
      exact hroot
    · rw [value?_cons, hchild, Option.bind_some] at hnode
      exact habove above node hbelow (by simpa using hne) hnode

mutual

/-- The paths of a walk are those it comes to, each after the path it starts from. -/
theorem mem_walk_iff (base whole : NodePath) :
    (t : Tree α) → (whole ∈ (t.walk enter base).map Prod.fst ↔
      ∃ path, whole = base ++ path ∧ t.Visits enter path)
  | .node value children => by
    have hbelow := mem_walkAll_iff base whole 0 children
    rw [walk, List.map_cons, List.mem_cons]
    constructor
    · rintro (rfl | hwhole)
      · exact ⟨[], by simp, visits_nil _⟩
      · split_ifs at hwhole with henter
        · obtain ⟨index, child, path, hchild, rfl, hvisits⟩ := hbelow.mp hwhole
          exact ⟨index :: path, by simp, visits_cons_iff.mpr ⟨henter, child, hchild, hvisits⟩⟩
        · cases hwhole
    · rintro ⟨_ | ⟨index, path⟩, rfl, hvisits⟩
      · exact Or.inl (by simp)
      · obtain ⟨henter, child, hchild, hvisits⟩ := visits_cons_iff.mp hvisits
        rw [value_node] at henter
        rw [if_pos henter]
        exact Or.inr (hbelow.mpr ⟨index, child, path, hchild, by simp, hvisits⟩)

theorem mem_walkAll_iff (base whole : NodePath) (start : Nat) :
    (ts : List (Tree α)) → (whole ∈ (walkAll enter base start ts).map Prod.fst ↔
      ∃ index t path, ts[index]? = some t ∧ whole = base ++ (start + index) :: path ∧
        t.Visits enter path)
  | [] => by simp [walkAll]
  | t :: ts => by
    have hshift : ∀ index, start + (index + 1) = start + 1 + index := by omega
    rw [walkAll, List.map_append, List.mem_append, mem_walk_iff (base ++ [start]) whole t,
      mem_walkAll_iff base whole (start + 1) ts]
    constructor
    · rintro (⟨path, rfl, hvisits⟩ | ⟨index, child, path, hchild, rfl, hvisits⟩)
      · exact ⟨0, t, path, rfl, by simp, hvisits⟩
      · exact ⟨index + 1, child, path, hchild, by rw [hshift index], hvisits⟩
    · rintro ⟨_ | index, child, path, hchild, rfl, hvisits⟩
      · cases hchild
        exact Or.inl ⟨path, by simp, hvisits⟩
      · exact Or.inr ⟨index, child, path, hchild, by rw [hshift index], hvisits⟩

end

theorem lex_append_cons (base : NodePath) (index : Nat) (rest : NodePath) :
    List.Lex (· < ·) base (base ++ index :: rest) := by
  have hnil : List.Lex (· < ·) [] (index :: rest) := .nil
  simpa using List.Lex.append_left (· < ·) hnil base

mutual

theorem pairwise_walk (base : NodePath) :
    (t : Tree α) → ((t.walk enter base).map Prod.fst).Pairwise (List.Lex (· < ·))
  | .node value children => by
    rw [walk, List.map_cons, List.pairwise_cons]
    split_ifs
    · refine ⟨fun path hpath ↦ ?_, pairwise_walkAll base 0 children⟩
      obtain ⟨index, _, rest, _, rfl, _⟩ := (mem_walkAll_iff _ _ 0 children).mp hpath
      exact lex_append_cons base _ rest
    · simp

theorem pairwise_walkAll (base : NodePath) (start : Nat) :
    (ts : List (Tree α)) →
      ((walkAll enter base start ts).map Prod.fst).Pairwise (List.Lex (· < ·))
  | [] => by simp [walkAll]
  | t :: ts => by
    rw [walkAll, List.map_append, List.pairwise_append]
    refine ⟨pairwise_walk _ t, pairwise_walkAll base (start + 1) ts, ?_⟩
    -- the two paths part below the base, at the position of the child
    intro path hpath other hother
    obtain ⟨rest, rfl, _⟩ := (mem_walk_iff _ _ t).mp hpath
    obtain ⟨index, _, rest', _, rfl, _⟩ := (mem_walkAll_iff _ _ (start + 1) ts).mp hother
    rw [List.append_assoc]
    exact List.Lex.append_left _ (.rel (by omega)) base

end

end Tree

/-! ## The names of places -/

/-- The name of the place at a path of a formula. -/
inductive Grammar.Labels (g : Grammar) (t : FormulaTree) : NodePath → String → Prop
  /-- The whole formula. -/
  | root : Labels g t [] "formula"
  /-- An argument of an operator goes by the name it is declared with. -/
  | argument {path : NodePath} {index : Nat} {node : Node} {name : String} {op : Operator Kind}
      {arg : Argument Kind} (above : t.value? path = some node) (kind : node.kind = .operator name)
      (found : g.find? name = some op) (get : op.args[index]? = some arg) :
      Labels g t (path ++ [index]) arg.name
  /-- An element of a list goes by its position. -/
  | element {path : NodePath} {index : Nat} {node : Node} {element : Kind}
      (above : t.value? path = some node) (kind : node.kind = .list element) :
      Labels g t (path ++ [index]) ("[" ++ toString index ++ "]")
  /-- The part of a union. -/
  | variant {path : NodePath} {index : Nat} {node : Node} {variants : List Kind}
      (above : t.value? path = some node) (kind : node.kind = .union variants) :
      Labels g t (path ++ [index]) "variant"

namespace Editor

variable {g : Grammar} {e : Editor} {path : NodePath} {part : FormulaTree}

theorem labelAt_concat {parent : NodePath} {above : FormulaTree}
    (habove : e.tree.get? parent = some above) (index : Nat) :
    e.labelAt (parent ++ [index]) = placeLabel e.grammar above.value.kind index := by
  simp only [labelAt, List.getLast?_concat, List.dropLast_concat, habove]

theorem Sound.labels_labelAt (h : Sound g e) (hpart : e.tree.get? path = some part) :
    g.Labels e.tree path (e.labelAt path) := by
  rcases path.eq_nil_or_concat' with rfl | ⟨parent, index, rfl⟩
  · exact .root
  · obtain ⟨above, habove, hchild⟩ := Tree.exists_parent hpart
    have hvalue : e.tree.value? parent = some above.value := by rw [Tree.value?, habove]; rfl
    have haccepts := h.tree.accepts habove
    rw [labelAt_concat habove, h.grammar]
    cases hkind : above.value.kind with
    | atom type =>
      -- an atom has no parts
      rw [hkind] at haccepts
      have hnone : above.children = [] := List.map_eq_nil_iff.mp haccepts
      rw [hnone] at hchild
      cases hchild
    | operator name =>
      rw [hkind] at haccepts
      obtain ⟨op, hop, hargs⟩ := haccepts
      have hlength : op.args.length = above.children.length := by
        rw [hargs.length_eq, Grammar.rootKinds, List.length_map]
      obtain ⟨hlt, _⟩ := List.getElem?_eq_some_iff.mp hchild
      obtain ⟨arg, harg⟩ : ∃ arg, op.args[index]? = some arg :=
        ⟨_, List.getElem?_eq_getElem (hlength ▸ hlt)⟩
      have hlabel : placeLabel g (.operator name) index = arg.name := by
        simp only [placeLabel, hop, Option.bind_some, harg]
      rw [hlabel]
      exact .argument hvalue hkind hop harg
    | union variants => exact .variant hvalue hkind
    | list element => exact .element hvalue hkind

/-! ## Views and outlines -/

theorem view?_eq_some (hpart : e.tree.get? path = some part) :
    e.view? path = some ⟨path, path.length, e.labelAt path, part.value.flags.isOpen,
      controlOf e.grammar path.isEmpty part⟩ := by
  rw [view?, hpart]

theorem Sound.variantSelector_live (h : Sound g e) (hpart : e.tree.get? path = some part)
    {current : Nat} {labels : List String}
    (hcontrol : controlOf e.grammar path.isEmpty part = .variantSelector current labels) :
    ∃ variants live variant, part.value.kind = .union variants ∧ part.children = [live] ∧
      labels = variants.map Kind.text ∧ g.liveVariant? variants live.value.kind = some current ∧
      variants[current]? = some variant ∧ g.fits variant live.value.kind = true := by
  have hshown : e.control? path = some (.variantSelector current labels) := by
    rw [control?_eq, hpart, Option.map_some, hcontrol]
  obtain ⟨union, variants, hunion, hkind, hcurrent, hlabels⟩ :=
    control?_eq_variantSelector_iff.mp hshown
  obtain rfl := Option.some.inj (hpart.symm.trans hunion)
  obtain ⟨live, index, hparts, hlive⟩ := h.tree.exists_live hpart hkind
  -- the part belongs to a variant, so the default position is not used
  obtain rfl : index = current := by
    rw [h.grammar, Grammar.liveIn?, hparts, List.head?_cons, Option.bind_some, hlive] at hcurrent
    exact hcurrent
  obtain ⟨variant, hvariant, hfits⟩ := Grammar.liveVariant?_fits hlive
  exact ⟨variants, live, variant, hkind, hparts, hlabels.symm, hlive, hvariant, hfits⟩

theorem outline_eq_views (e : Editor) :
    e.outline.map some =
      ((e.tree.walk (·.flags.isOpen) []).map Prod.fst).map e.view? := by
  have hviews : e.outline =
      ((e.tree.walk (·.flags.isOpen) []).map Prod.fst).filterMap e.view? := by
    rw [outline, List.filterMap_map]
    rfl
  rw [hviews, List.map_filterMap_some_eq_filter_map_isSome, List.filter_eq_self,
    List.forall_mem_map]
  intro path hpath
  obtain ⟨_, rfl, ⟨part, hpart⟩, _⟩ := (Tree.mem_walk_iff _ _ _).mp hpath
  rw [view?_eq_some hpart]
  rfl

/-- **An outline shows exactly what is visible.** It lists one view for each path at which there is
a node below open nodes only, parents before children and one child before the next. Wherever a
node is, visible or not, its view has a name for its place: the whole is the formula, an argument
has the declared name, an element its position, and the part of a union is its variant. The selector
of a union shows the position of a variant that the part of the union fits. -/
theorem outline_shows_visible {g : Grammar} {e : Editor} (he : Reachable g e) :
    (∃ paths : List NodePath, e.outline.map some = paths.map e.view? ∧
      paths.Pairwise (List.Lex (· < ·)) ∧
      ∀ path, path ∈ paths ↔ e.tree.Visits (·.flags.isOpen) path) ∧
      ∀ path part, e.tree.get? path = some part → ∃ view, e.view? path = some view ∧
        view.path = path ∧ view.depth = path.length ∧ view.isOpen = part.value.flags.isOpen ∧
        g.Labels e.tree path view.label ∧
        ∀ current labels, view.control = .variantSelector current labels →
          current < labels.length ∧ ∃ variants live variant,
            part.value.kind = .union variants ∧ part.children = [live] ∧
            labels = variants.map Kind.text ∧
            g.liveVariant? variants live.value.kind = some current ∧
            variants[current]? = some variant ∧ g.fits variant live.value.kind = true := by
  have hsound := he.sound
  refine ⟨⟨_, e.outline_eq_views, Tree.pairwise_walk [] e.tree, fun path ↦ ?_⟩,
    fun path part hpart ↦ ⟨_, view?_eq_some hpart, rfl, rfl, rfl, hsound.labels_labelAt hpart, ?_⟩⟩
  · rw [Tree.mem_walk_iff]
    simp
  · intro current labels hcontrol
    obtain ⟨variants, live, variant, hkind, hparts, rfl, hlive, hvariant, hfits⟩ :=
      hsound.variantSelector_live hpart hcontrol
    obtain ⟨hlt, _⟩ := List.getElem?_eq_some_iff.mp hvariant
    exact ⟨by rwa [List.length_map], variants, live, variant, hkind, hparts, rfl, hlive, hvariant,
      hfits⟩

/-- A part of a union is folded. It is shown, what is below it is not, but can be looked at. -/
theorem outline_shows_visible_folded :
    let g := (Grammar.ofJson logic).2
    let union : Kind := .union [.atom .bool, .operator "flag"]
    let value := (.leaf (.ofAtom .bool "false") : FormulaTree)
    let flag := (.node (Node.toggle (.plain (.operator "flag"))) [value] : FormulaTree)
    let test := fun live ↦
      (.node (.plain (.operator "test")) [.node (.plain union) [live]] : FormulaTree)
    let e := run (ofTree g (test value))
      [.command (.edit ⟨[0], .selectVariant "flag"⟩), .command (.edit ⟨[0, 0], .toggleOpen⟩)]
    Reachable g e ∧ e.tree = test flag ∧ (∃ view ∈ e.outline, e.view? [0, 0] = some view) ∧
      (∃ view, e.view? [0, 0, 0] = some view ∧ view ∉ e.outline ∧
        g.Labels e.tree [0, 0, 0] view.label) ∧
      ∃ view, e.view? [0] = some view ∧ view.control = .variantSelector 1 ["bool", "flag"] ∧
        1 < ["bool", "flag"].length ∧ g.fits (.operator "flag") flag.value.kind = true := by
  intro g union value flag test e
  have hlaunch : launch g (some "test") = .ok (ofTree g (test value)) := by decide +kernel
  have he : Reachable g e := (launch_reachable hlaunch).run _
  have htree : e.tree = test flag := by decide +kernel
  obtain ⟨⟨paths, hviews, _, hpaths⟩, hnodes⟩ := outline_shows_visible he
  have hshown : e.tree.Visits (·.flags.isOpen) [0, 0] := by
    rw [htree]
    exact Tree.visits_cons_iff.mpr ⟨rfl, _, rfl,
      Tree.visits_cons_iff.mpr ⟨rfl, _, rfl, Tree.visits_nil _⟩⟩
  have hhidden : ¬e.tree.Visits (·.flags.isOpen) [0, 0, 0] := by
    rw [htree]
    rintro ⟨_, habove⟩
    cases habove [0, 0] _ (by decide) (by decide) rfl
  refine ⟨he, htree, ?_, ?_, ?_⟩
  · have hmem : e.view? [0, 0] ∈ e.outline.map some := by
      rw [hviews]
      exact List.mem_map_of_mem ((hpaths _).mpr hshown)
    obtain ⟨view, hview, heq⟩ := List.mem_map.mp hmem
    exact ⟨view, hview, heq.symm⟩
  · obtain ⟨view, hview, hpath, _, _, hlabel, _⟩ := hnodes [0, 0, 0] value (by rw [htree]; rfl)
    refine ⟨view, hview, fun hmem ↦ hhidden ?_, hlabel⟩
    have hlisted := List.mem_map_of_mem (f := some) hmem
    rw [hviews] at hlisted
    obtain ⟨path, hlisted, heq⟩ := List.mem_map.mp hlisted
    obtain ⟨⟨part, hpart⟩, _⟩ := (hpaths path).mp hlisted
    obtain ⟨_, hview', hpath', _⟩ := hnodes path part hpart
    obtain rfl := Option.some.inj (heq.symm.trans hview')
    rw [← hpath, hpath']
    exact (hpaths path).mp hlisted
  · obtain ⟨view, hview, _, _, _, _, hselector⟩ :=
      hnodes [0] (.node (.plain union) [flag]) (by rw [htree]; rfl)
    have hcontrol : (e.view? [0]).map NodeView.control =
        some (.variantSelector 1 ["bool", "flag"]) := by decide +kernel
    rw [hview, Option.map_some] at hcontrol
    obtain ⟨hlt, variants, live, variant, hkind, hparts, _, _, hvariant, hfits⟩ :=
      hselector _ _ (Option.some.inj hcontrol)
    cases hkind
    cases hparts
    cases hvariant
    exact ⟨view, hview, Option.some.inj hcontrol, hlt, hfits⟩

end Editor

end FormulaEdit
