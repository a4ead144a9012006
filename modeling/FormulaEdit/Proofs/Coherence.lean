import FormulaEdit.Proofs.Offer

/-!
# Atoms keep what they say

The text of an atom and what is wrong with it are two fields of a node, and nothing in the type ties
them together. They agree all the same (`Node.Coherent`): the reason that an atom shows is the one
that its text is rejected for, and a text that is accepted is in normal form. A node that is no atom
has neither a text nor a reason.

Two facts carry this. A normal form is its own normal form (`Atom.check_normal`), so that a text
which was put in normal form passes the check as it stands. And a rejected text is kept as it is, so
that its reason, which quotes it, stays right.

Every way in which a node gets into a formula gives a coherent node, and edits elsewhere leave it
alone. This is a condition on nodes and has nothing to do with shape, so what edits do to it is
read off the cursor (`Cursor.All`), and runs keep it by `Editor.Holds.run`.
-/

namespace FormulaEdit

/-! ## Normal forms -/

namespace Atom

/-- **A normal form is its own normal form.** -/
theorem check_normal {atom : Atom} {raw normal : String} (h : atom.check raw = .ok normal) :
    atom.check normal = .ok normal := by
  cases atom with
  | str =>
    simp only [check] at h ⊢
    split_ifs at h with hliteral
    cases h
    rw [if_pos hliteral]
  | bool =>
    simp only [check] at h
    split_ifs at h with hword
    obtain rfl := Except.ok.inj h
    -- only two texts are left, and each is in normal form
    rcases Bool.or_eq_true_iff.mp hword with htrue | hfalse
    · rw [of_decide_eq_true htrue]
      decide
    · rw [of_decide_eq_true hfalse]
      decide
  | number | int =>
    simp only [check] at h ⊢
    split_ifs at h with hread
    cases h
    rw [Text.trimmed_trimmed, if_pos hread]
  | timestamp =>
    simp only [check] at h ⊢
    split_ifs at h with hempty hstamp
    cases h
    rw [Text.trimmed_trimmed, if_neg hempty, if_pos hstamp]

end Atom

/-! ## Coherent nodes -/

namespace Node

theorem plain_coherent {kind : Kind} (hatom : ∀ type, kind ≠ .atom type) :
    (plain kind).Coherent := by
  cases kind with
  | atom type => exact absurd rfl (hatom type)
  | operator name => exact ⟨rfl, rfl⟩
  | union variants => exact ⟨rfl, rfl⟩
  | list element => exact ⟨rfl, rfl⟩

theorem setInput_coherent {node : Node} {type : Atom} (hkind : node.kind = .atom type)
    (raw : String) : (node.setInput raw).Coherent := by
  simp only [setInput, hkind, entry, Coherent]
  cases hcheck : type.check raw with
  | ok normal =>
    simp only [Atom.check_normal hcheck, and_self]
  | error rejection => simp only [hcheck]

theorem setInput_of_not_atom {node : Node} (hkind : ∀ type, node.kind ≠ .atom type)
    (raw : String) : node.setInput raw = node := by
  unfold setInput
  split
  · next type htype => exact absurd htype (hkind type)
  · rfl

theorem Coherent.setInput {node : Node} (h : node.Coherent) (raw : String) :
    (node.setInput raw).Coherent := by
  by_cases hatom : ∃ type, node.kind = .atom type
  · obtain ⟨type, hkind⟩ := hatom
    exact setInput_coherent hkind raw
  · rw [setInput_of_not_atom (not_exists.mp hatom)]
    exact h

theorem setInput_setInput (node : Node) (raw : String) :
    (node.setInput raw).setInput raw = node.setInput raw := by
  by_cases hatom : ∃ type, node.kind = .atom type
  · obtain ⟨type, hkind⟩ := hatom
    simp only [setInput, hkind]
  · rw [setInput_of_not_atom (not_exists.mp hatom), setInput_of_not_atom (not_exists.mp hatom)]

theorem Coherent.setInput_input {node : Node} {type : Atom} (h : node.Coherent)
    (hkind : node.kind = .atom type) : node.setInput node.input = node := by
  have hentry := h.entry hkind
  obtain ⟨kind, input, isOpen, invalid⟩ := node
  obtain rfl : kind = .atom type := hkind
  simp only [Node.setInput, hentry]

end Node

/-! ## A condition on every node -/

namespace Cursor

variable {α : Type} {p : α → Prop} {c : Cursor α} {t : Tree α}

def All (p : α → Prop) (c : Cursor α) : Prop :=
  c.focus.All p ∧
    ∀ crumb ∈ c.crumbs, p crumb.parent ∧ ∀ part ∈ crumb.before ++ crumb.after, part.All p

theorem all_tree_iff : c.tree.All p ↔ c.All p := by
  obtain ⟨t, crumbs⟩ := c
  induction crumbs generalizing t with
  | nil => simp [All, tree, plug]
  | cons crumb crumbs ih =>
    rw [tree_cons, ih, All, All, Crumb.close, Tree.all_node_iff]
    simp only [List.mem_append, List.mem_cons, or_imp, forall_and, forall_eq]
    tauto

theorem All.of_stays {p : Node → Prop} {c : Cursor Node} {step : EditStep} (h : c.All p)
    (hstays : step.Stays c) : step.cursor.All p := by
  rw [hstays.1]
  exact h

theorem All.replace (h : c.All p) (ht : t.All p) : (c.replace t).All p := ⟨ht, h.2⟩

theorem All.modify {f : α → α} (h : c.All p) (hf : ∀ value, p value → p (f value)) :
    (c.modify f).All p := by
  obtain ⟨⟨value, parts⟩, crumbs⟩ := c
  obtain ⟨hvalue, hparts⟩ := Tree.all_node_iff.mp h.1
  exact ⟨.node (hf value hvalue) hparts, h.2⟩

theorem All.pushChild (h : c.All p) (ht : t.All p) : (c.pushChild t).All p := by
  obtain ⟨⟨value, parts⟩, crumbs⟩ := c
  obtain ⟨hvalue, hparts⟩ := Tree.all_node_iff.mp h.1
  refine ⟨ht, List.forall_mem_cons.mpr ⟨⟨hvalue, ?_⟩, h.2⟩⟩
  simpa using hparts

theorem All.insert (h : c.All p) (ht : t.All p) : (c.insert t).All p := by
  obtain ⟨focus, crumbs⟩ := c
  cases crumbs with
  | nil => exact h
  | cons crumb crumbs =>
    obtain ⟨hfocus, hcrumbs⟩ := h
    obtain ⟨⟨hparent, hparts⟩, houter⟩ := List.forall_mem_cons.mp hcrumbs
    refine ⟨ht, List.forall_mem_cons.mpr ⟨⟨hparent, fun part hpart ↦ ?_⟩, houter⟩⟩
    simp only [List.mem_append, List.mem_singleton] at hpart hparts
    rcases hpart with (hpart | rfl) | hpart
    · exact hparts part (Or.inl hpart)
    · exact hfocus
    · exact hparts part (Or.inr hpart)

theorem All.delete [Variadic α] (h : c.All p) : c.delete.All p := by
  obtain ⟨focus, crumbs⟩ := c
  match crumbs with
  | [] => exact h
  | ⟨parent, before, after⟩ :: crumbs =>
    obtain ⟨⟨hparent, hparts⟩, houter⟩ := List.forall_mem_cons.mp h.2
    dsimp only at hparent hparts
    dsimp only [Cursor.delete]
    split_ifs with hvariadic
    · match after with
      | next :: after =>
        refine ⟨hparts next (by simp), List.forall_mem_cons.mpr ⟨⟨hparent, ?_⟩, houter⟩⟩
        intro part hpart
        exact hparts part (by simp only [List.mem_append, List.mem_cons] at hpart ⊢; tauto)
      | [] =>
        rw [List.append_nil] at hparts
        cases hlast : before.getLast? with
        | none => exact ⟨.node hparent (by simp), houter⟩
        | some previous =>
          refine ⟨hparts previous (List.mem_of_getLast? hlast),
            List.forall_mem_cons.mpr ⟨⟨hparent, ?_⟩, houter⟩⟩
          intro part hpart
          rw [List.append_nil] at hpart
          exact hparts part (List.dropLast_subset before hpart)
    · exact h

end Cursor

namespace Grammar

variable {g : Grammar}

theorem buildWithin_coherent {levels remaining : Nat} {kind : Kind} {initial : Option String}
    {t : FormulaTree} (h : g.buildWithin levels remaining kind initial = .ok t) :
    t.All Node.Coherent := by
  refine (buildWithin_induction (P := fun _ _ t ↦ t.All Node.Coherent) ?_ ?_ ?_ ?_ h).2
  · intro _ type raw
    exact .node (Node.setInput_coherent rfl raw) (by simp)
  · intro _ element
    exact .node (Node.plain_coherent (by simp)) (by simp)
  · intro _ first rest live _ hlive
    exact .node (Node.plain_coherent (by simp)) (by simpa using hlive)
  · intro _ name op parts _ hparts
    refine .node (Node.plain_coherent (by simp)) fun part hpart ↦ ?_
    obtain ⟨arg, _, _, hcoherent⟩ := exists_left_of_forall₂ hparts hpart
    exact hcoherent

theorem freshKind_coherent {kind : Kind} {t : FormulaTree} (h : g.freshKind kind = .ok t) :
    t.All Node.Coherent :=
  buildWithin_coherent (freshKind_eq_ok_iff.mp h)

theorem freshOperator_coherent {name : String} {t : FormulaTree}
    (h : g.freshOperator name = .ok t) : t.All Node.Coherent :=
  buildWithin_coherent (freshOperator_eq_ok_iff.mp h).2

theorem setVariant_coherent {c : Cursor Node} {part : FormulaTree} (h : c.All Node.Coherent)
    (hpart : part.All Node.Coherent) : (setVariant c part).All Node.Coherent := by
  obtain ⟨⟨union, parts⟩, crumbs⟩ := c
  obtain ⟨hunion, hparts⟩ := Tree.all_node_iff.mp h.1
  cases parts with
  | nil => exact h.replace (.node hunion (by simpa using hpart))
  | cons live others =>
    refine h.replace (.node hunion ?_)
    rw [List.forall_mem_cons] at hparts ⊢
    exact ⟨hpart, hparts.2⟩

/-- **Every edit keeps nodes coherent.** -/
theorem editAt_coherent {c : Cursor Node} {edit : Edit} {step : EditStep}
    (h : c.All Node.Coherent) (hstep : g.editAt c edit = .ok step) :
    step.cursor.All Node.Coherent := by
  cases edit with
  | selectOperator name =>
    rcases selectOperator_cases hstep with hstays | ⟨_, fresh, _, _, hfresh, rfl⟩
    · exact h.of_stays hstays
    · -- a new operator takes over only whether it is open
      obtain ⟨root, parts⟩ := fresh
      obtain ⟨hroot, hparts⟩ := Tree.all_node_iff.mp (freshOperator_coherent hfresh)
      exact h.replace (.node hroot hparts)
  | selectVariant selector =>
    rcases selectVariant_cases hstep with hstays | ⟨_, _, fresh, _, _, hfresh, rfl⟩
    · exact h.of_stays hstays
    · exact setVariant_coherent h (freshKind_coherent hfresh)
  | setInput raw =>
    cases hstep
    rcases setInput_cases c raw with hstays | hdone
    · exact h.of_stays hstays
    · rw [hdone]
      exact h.modify fun node hnode ↦ hnode.setInput raw
  | listAdd =>
    rcases listAdd_cases hstep with hstays | ⟨_, fresh, hfresh, ⟨_, rfl⟩ | ⟨_, rfl⟩⟩
    · exact h.of_stays hstays
    · exact h.pushChild (freshKind_coherent hfresh)
    · exact h.insert (freshKind_coherent hfresh)
  | listRemove =>
    cases hstep
    rcases listRemove_cases c with hstays | ⟨_, _, hdone⟩
    · exact h.of_stays hstays
    · rw [hdone]
      exact h.delete
  | toggleOpen =>
    cases hstep
    exact h.modify fun node hnode ↦ hnode

theorem keeps_coherent : g.Keeps (·.All Node.Coherent) where
  fresh := freshOperator_coherent
  edit := by
    intro t t' event outcome ht happly
    obtain ⟨c, step, rfl, hstep, rfl, _⟩ := applyEdit_eq_ok happly
    exact Cursor.all_tree_iff.mpr (editAt_coherent (Cursor.all_tree_iff.mp ht) hstep)

end Grammar

/-! ## Texts of an editor -/

theorem Tree.All.of_get? {α : Type} {p : α → Prop} {t part : Tree α} {path : NodePath}
    (h : t.All p) (hpart : t.get? path = some part) : part.All p := by
  obtain ⟨c, rfl, rfl, rfl⟩ := Cursor.exists_of_get? hpart
  exact (Cursor.all_tree_iff.mp h).1

theorem Cursor.modify_value {α : Type} (c : Cursor α) (f : α → α) :
    (c.modify f).value = f c.value := by
  obtain ⟨⟨value, parts⟩, crumbs⟩ := c
  rfl

namespace Editor

variable {g : Grammar} {e : Editor} {path : NodePath} {part : FormulaTree}

theorem control?_eq_atomInput_iff {atom : Atom} {value : String} {invalid : Option String} :
    e.control? path = some (.atomInput atom value invalid) ↔
      ∃ part, e.tree.get? path = some part ∧ part.value.kind = .atom atom ∧
        part.value.input = value ∧ part.value.flags.invalid = invalid := by
  rw [control?_eq, Option.map_eq_some_iff]
  refine exists_congr fun part ↦ and_congr_right fun _ ↦ ?_
  rw [controlOf]
  cases part.value.kind with
  | atom type => simp
  | operator name => simp
  | union variants => simp
  | list element => simp

theorem apply_setInput_eq_self {raw : String} (hpart : e.tree.get? path = some part)
    (hsame : part.value.setInput raw = part.value) :
    e.apply ⟨path, .setInput raw⟩ = .ok (⟨false, path, none⟩, e) := by
  obtain ⟨c, htree, rfl, rfl⟩ := Cursor.exists_of_get? hpart
  have hidle : Grammar.setInput c raw = .idle c := by
    rw [Grammar.setInput, Cursor.modify_value]
    exact if_pos hsame
  rw [apply_path htree, Grammar.editAt, hidle]
  rfl

theorem exists_apply_setInput (hpart : e.tree.get? path = some part) (raw : String) :
    ∃ outcome e' part', e.apply ⟨path, .setInput raw⟩ = .ok (outcome, e') ∧
      e'.tree.get? path = some part' ∧ part'.value = part.value.setInput raw := by
  by_cases hsame : part.value.setInput raw = part.value
  · exact ⟨_, e, part, apply_setInput_eq_self hpart hsame, hpart, hsame.symm⟩
  · obtain ⟨c, htree, rfl, rfl⟩ := Cursor.exists_of_get? hpart
    have hdone : Grammar.setInput c raw = .done (c.modify (·.setInput raw)) := by
      rw [Grammar.setInput, Cursor.modify_value]
      exact if_neg hsame
    rw [apply_path htree, Grammar.editAt, hdone]
    exact ⟨_, _, _, rfl, (c.modify (·.setInput raw)).get?_path, c.modify_value _⟩

/-- **Atoms keep what they say.** Whatever was called before, every atom of the formula and of the
history shows the reason that its text is rejected for or has a text in normal form, and no other
node has a text. To give an atom the text that is shown changes nothing. Any other text is kept in
normal form, or as it is with the reason of its rejection, and to give it to a node again changes
nothing. -/
theorem reachable_coherent {g : Grammar} {e : Editor} (he : Reachable g e) :
    e.tree.All Node.Coherent ∧ e.history.Holds (·.All Node.Coherent) ∧
      (∀ path atom value invalid, e.control? path = some (.atomInput atom value invalid) →
        e.apply ⟨path, .setInput value⟩ = .ok (⟨false, path, none⟩, e) ∧
        ∀ raw outcome e', e.apply ⟨path, .setInput raw⟩ = .ok (outcome, e') →
          e'.control? path = some (match atom.check raw with
            | .ok normal => .atomInput atom normal none
            | .error rejection => .atomInput atom raw (some rejection.message))) ∧
      ∀ path, e.tree.get? path ≠ none → ∀ raw, ∃ outcome e',
        e.apply ⟨path, .setInput raw⟩ = .ok (outcome, e') ∧
          e'.apply ⟨path, .setInput raw⟩ = .ok (⟨false, path, none⟩, e') := by
  obtain ⟨htree, hhistory⟩ := he.holds Grammar.keeps_coherent
  refine ⟨htree, hhistory, fun path atom value invalid hcontrol ↦ ⟨?_, ?_⟩, ?_⟩
  · obtain ⟨part, hpart, hkind, rfl, _⟩ := control?_eq_atomInput_iff.mp hcontrol
    rw [← part.node_value_children] at hpart
    have hnode := (Tree.all_node_iff.mp (htree.of_get? hpart)).1
    exact apply_setInput_eq_self hpart (hnode.setInput_input hkind)
  · intro raw outcome e' happly
    obtain ⟨part, hpart, hkind, _⟩ := control?_eq_atomInput_iff.mp hcontrol
    obtain ⟨_, _, part', happly', hpart', hvalue⟩ := exists_apply_setInput hpart raw
    obtain ⟨rfl, rfl⟩ := Prod.mk.inj (Except.ok.inj (happly'.symm.trans happly))
    rw [control?_eq, hpart', Option.map_some, controlOf, hvalue]
    simp only [Node.setInput, hkind, Node.entry]
    cases atom.check raw <;> rfl
  · intro path hnode raw
    obtain ⟨part, hpart⟩ := Option.ne_none_iff_exists'.mp hnode
    obtain ⟨outcome, e', part', happly, hpart', hvalue⟩ := exists_apply_setInput hpart raw
    have hsame : part'.value.setInput raw = part'.value := by
      rw [hvalue, Node.setInput_setInput]
    exact ⟨outcome, e', happly, apply_setInput_eq_self hpart' hsame⟩

/-- A text with blanks around it is kept without them, and one that is no truth value is kept with
them. -/
theorem reachable_coherent_logic :
    let g := (Grammar.ofJson logic).2
    let e := run (ofTree g (.node (.plain (.operator "flag")) [.leaf (.ofAtom .bool "false")]))
      [.command (.edit ⟨[0], .setInput " maybe "⟩)]
    Reachable g e ∧ e.tree.All Node.Coherent ∧
      e.control? [0] = some (.atomInput .bool " maybe " (some "' maybe ' is not a boolean")) ∧
      e.apply ⟨[0], .setInput " maybe "⟩ = .ok (⟨false, [0], none⟩, e) ∧
      ∃ outcome e', e.apply ⟨[0], .setInput " TRUE "⟩ = .ok (outcome, e') ∧
        e'.control? [0] = some (.atomInput .bool "true" none) ∧
        e'.apply ⟨[0], .setInput " TRUE "⟩ = .ok (⟨false, [0], none⟩, e') := by
  intro g e
  have hlaunch : launch g none = .ok (ofTree g (.node (.plain (.operator "flag"))
      [.leaf (.ofAtom .bool "false")])) := by decide +kernel
  have he : Reachable g e := (launch_reachable hlaunch).run _
  have hcontrol : e.control? [0] =
      some (.atomInput .bool " maybe " (some "' maybe ' is not a boolean")) := by decide +kernel
  have hcheck : Atom.check .bool " TRUE " = .ok "true" := by decide +kernel
  obtain ⟨htree, _, hatom, hagain⟩ := reachable_coherent he
  obtain ⟨hown, hother⟩ := hatom _ _ _ _ hcontrol
  obtain ⟨outcome, e', happly, hsame⟩ := hagain [0] (by decide +kernel) " TRUE "
  have hshown := hother _ _ _ happly
  rw [hcheck] at hshown
  exact ⟨he, htree, hcontrol, hown, outcome, e', happly, hshown, hsame⟩

end Editor

end FormulaEdit
