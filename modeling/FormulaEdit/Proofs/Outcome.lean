import FormulaEdit.Proofs.Chronicle
import FormulaEdit.Proofs.Plan

/-!
# What an outcome tells

An outcome says whether the formula changed and which node is in focus. Both can be relied on.

The flag is exact. A plan that changes something leads to another formula, since each of the changes
that edits make is seen at the place where it is made (`Grammar.Plans.on_ne`): an operator or a
variant of another kind, another value, a list of another length. The one exception is a union that
lists a kind twice. Its variants are told apart by position, so that one may be replaced by another
of the same kind and content, and this counts as a change.

The focus after an addition is the new element, and to remove the node in focus takes it back
(`Grammar.exists_applyEdit_listRemove`).
-/

namespace FormulaEdit

variable {α : Type}

/-! ## Changes that are seen -/

namespace Tree

theorem alterAt_ne {f : Tree α → Tree α} {t part : Tree α} {path : NodePath}
    (hpart : t.get? path = some part) (hf : f part ≠ part) : t.alterAt f path ≠ t := by
  intro hsame
  have hget := t.get?_alterAt f path
  rw [hsame, hpart] at hget
  exact hf (Option.some.inj hget).symm

theorem alterChildren_ne {f : List (Tree α) → List (Tree α)} {t : Tree α}
    (h : (f t.children).length ≠ t.children.length) : t.alterChildren f ≠ t := by
  intro hsame
  have hchildren : f t.children = t.children := congrArg Tree.children hsame
  exact h (congrArg List.length hchildren)

end Tree

namespace Change

variable {t part : Tree α} {path : NodePath}

theorem assign_on_ne (hpart : t.get? path = some part) {value : α} (hvalue : value ≠ part.value) :
    (assign path value).on t ≠ t := by
  refine Tree.alterAt_ne hpart fun hsame ↦ hvalue ?_
  have hroot := congrArg Tree.value hsame
  obtain ⟨old, parts⟩ := part
  exact hroot

theorem insert_on_ne (hpart : t.get? path = some part) {index : Nat}
    (hindex : index ≤ part.children.length) (new : Tree α) : (insert path index new).on t ≠ t := by
  refine Tree.alterAt_ne hpart (Tree.alterChildren_ne ?_)
  rw [List.length_insertIdx, if_pos hindex]
  omega

theorem remove_on_ne (hpart : t.get? path = some part) {index : Nat}
    (hindex : index < part.children.length) : (remove path index).on t ≠ t := by
  refine Tree.alterAt_ne hpart (Tree.alterChildren_ne ?_)
  rw [List.length_eraseIdx_of_lt hindex]
  omega

end Change

namespace Node

theorem toggle_ne (node : Node) : node.toggle ≠ node := by
  intro hsame
  have hopen := congrArg (·.flags.isOpen) hsame
  simp [toggle] at hopen

end Node

/-! ## The flag -/

/-- If the edit selects a variant, the union at the path lists no kind twice. -/
def EditEvent.Unambiguous (t : FormulaTree) (event : EditEvent) : Prop :=
  ∀ selector part variants, event.edit = .selectVariant selector →
    t.get? event.path = some part → part.value.kind = .union variants → variants.Nodup

namespace Grammar

variable {g : Grammar} {t : FormulaTree} {event : EditEvent}

/-- Where no kind is listed twice, a part of the kind of a variant belongs to this variant. -/
theorem liveVariant?_of_nodup {variants : List Kind} {index : Nat} {variant : Kind}
    (hnodup : variants.Nodup) (hvariant : variants[index]? = some variant) :
    g.liveVariant? variants variant = some index := by
  obtain ⟨hlt, hget⟩ := List.getElem?_eq_some_iff.mp hvariant
  have hfirst : variants.findIdx? (· = variant) = some index := by
    rw [List.findIdx?_eq_some_iff_getElem]
    refine ⟨hlt, by simp [hget], fun j hj heq ↦ ?_⟩
    have hsame : variants[j] = variants[index] := (of_decide_eq_true heq).trans hget.symm
    exact hj.ne ((hnodup.getElem_inj_iff).mp hsame)
  rw [liveVariant?, hfirst, Option.some_or]

/-- **What an edit changes is seen.** -/
theorem Plans.on_ne {change : Change Node} {focus : NodePath} (h : g.Plans t event change focus)
    (hvariants : event.Unambiguous t) : change.on t ≠ t := by
  cases h with
  | operator here kind other built =>
    refine Tree.alterAt_ne here fun hsame ↦ other ?_
    have hnew := buildWithin_kind (freshOperator_eq_ok_iff.mp built).2
    rw [← hsame] at kind
    exact Kind.operator.inj (kind.symm.trans hnew)
  | variant here kind listed not_live built filled =>
    obtain ⟨live, others, hparts⟩ := List.exists_cons_of_ne_nil filled
    have hlive : t.get? (focus ++ [0]) = some live := by
      rw [Tree.get?_append, here, Option.bind_some, Tree.get?_cons, hparts]
      rfl
    refine Tree.alterAt_ne hlive fun hsame ↦ not_live ?_
    -- a part of the kind of the variant would make it the live one
    have hnew := buildWithin_kind (freshKind_eq_ok_iff.mp built)
    rw [hsame] at hnew
    rw [liveIn?, hparts, List.head?_cons, Option.bind_some, hnew]
    exact liveVariant?_of_nodup (hvariants _ _ _ rfl here kind) listed
  | firstVariant here => exact Change.insert_on_ne here (Nat.zero_le _) _
  | input here other => exact Change.assign_on_ne here other
  | toggle here => exact Change.assign_on_ne here (Node.toggle_ne _)
  | push here => exact Change.insert_on_ne here le_rfl _
  | insert here =>
    obtain ⟨above, habove, hindex⟩ := Tree.exists_parent here
    exact Change.insert_on_ne habove (List.getElem?_eq_some_iff.mp hindex).1 _
  | remove here =>
    obtain ⟨above, habove, hindex⟩ := Tree.exists_parent here
    exact Change.remove_on_ne habove (List.getElem?_eq_some_iff.mp hindex).1

-- where a kind is listed twice, its second place may be taken by the same part as its first
example :
    let t := .node (.plain (.union [.atom .bool, .atom .bool])) [.leaf (.ofAtom .bool "false")]
    empty.applyEdit t ⟨[], .selectVariant "1"⟩ = .ok (t, ⟨true, [], none⟩) := by decide +kernel

end Grammar

namespace Editor

variable {g : Grammar} {e e' : Editor}

theorem Reachable.history_within (h : Reachable g e) :
    e.history.limit = 100 ∧ e.history.past.length ≤ 100 := by
  obtain ⟨name, start, startupErrors, events, hlaunch, rfl⟩ := h
  obtain ⟨_, t, _, rfl⟩ := launch_eq_ok hlaunch
  -- the history is what the chronicle of the run shows, which keeps to the limit of the start
  have hstart := Chronicle.within_start History.defaultLimit t
  have hshown : History.run (t, .empty History.defaultLimit) _ = _ :=
    run_actions { ofTree g t with startupErrors } events
  have hline := Chronicle.shown_run hstart (actions { ofTree g t with startupErrors } events)
  have hhistory := congrArg Prod.snd (hshown.symm.trans hline.symm)
  dsimp only at hhistory
  rw [hhistory]
  exact ⟨rfl, (hstart.run _).past_le (by decide)⟩

theorem apply_eq_ok {event : EditEvent} {outcome : Outcome}
    (h : e.apply event = .ok (outcome, e')) :
    (∃ miss, outcome = ⟨false, event.path, miss⟩ ∧ e' = e) ∨
      ∃ change focus, e.grammar.Plans e.tree event change focus ∧ outcome = ⟨true, focus, none⟩ ∧
        e' = e.commit (change.on e.tree) event.edit.description := by
  rw [apply] at h
  split at h
  · cases h
  · next t outcome' happly =>
    cases h
    obtain ⟨plan, hplan, rfl, rfl⟩ := Grammar.applyEdit_eq_ok_iff.mp happly
    cases plan with
    | keep miss => exact Or.inl ⟨miss, rfl, rfl⟩
    | make change focus =>
      exact Or.inr ⟨change, focus, Grammar.plans_of_planned hplan, rfl, rfl⟩

/-- **The flag is exact.** An edit that reports no change leaves all of the editor as it was. One
that reports a change does not miss and leads to another formula, where a variant is selected
provided that the union lists no kind twice. The formula before it is then noted in the history,
which keeps a hundred formulas, and nothing is left to do again. -/
theorem apply_changed_exact {g : Grammar} {e : Editor} (he : Reachable g e) {event : EditEvent}
    {outcome : Outcome} {e' : Editor} (happly : e.apply event = .ok (outcome, e')) :
    (outcome.changed = false → e' = e) ∧
      (outcome.changed = true → outcome.miss = none ∧
        (event.Unambiguous e.tree → e'.tree ≠ e.tree) ∧
        e'.history =
          ⟨(⟨e.tree, event.edit.description⟩ :: e.history.past).take 100, [], 100⟩) := by
  rcases apply_eq_ok happly with ⟨miss, rfl, rfl⟩ | ⟨change, focus, hplans, rfl, rfl⟩
  · exact ⟨fun _ ↦ rfl, fun hchanged ↦ by cases hchanged⟩
  · refine ⟨fun hchanged ↦ by (cases hchanged), fun _ ↦ ⟨rfl, hplans.on_ne, ?_⟩⟩
    obtain ⟨hlimit, hpast⟩ := he.history_within
    have hrecord := History.past_record (fun _ ↦ hpast.trans_eq hlimit.symm) e.tree
      event.edit.description
    rw [hlimit, if_neg (by decide)] at hrecord
    rw [commit, ← hrecord, ← hlimit]
    rfl

/-- An edit that misses keeps what can be done again, and one that changes the formula drops it. -/
theorem apply_changed_exact_logic :
    let g := (Grammar.ofJson logic).2
    let test := fun live ↦ (.node (.plain (.operator "test"))
      [.node (.plain (.union [.atom .bool, .operator "flag"])) [live]] : FormulaTree)
    let e := run (ofTree g (test (.leaf (.ofAtom .bool "false"))))
      [.command (.edit ⟨[0, 0], .setInput "true"⟩), .command .undo]
    let event : EditEvent := ⟨[0], .selectVariant "flag"⟩
    Reachable g e ∧ e.history.future.length = 1 ∧ event.Unambiguous e.tree ∧
      (∃ outcome, e.apply ⟨[0], .selectVariant "none"⟩ = .ok (outcome, e) ∧
        outcome.changed = false) ∧
      ∃ outcome e', e.apply event = .ok (outcome, e') ∧ outcome.changed = true ∧
        outcome.miss = none ∧ e'.tree ≠ e.tree ∧
        e'.history = ⟨[⟨e.tree, "select variant flag"⟩], [], 100⟩ := by
  intro g test e event
  have hlaunch : launch g (some "test") =
      .ok (ofTree g (test (.leaf (.ofAtom .bool "false")))) := by decide +kernel
  have he : Reachable g e := (launch_reachable hlaunch).run _
  have hevent : event.Unambiguous e.tree := by
    intro selector part variants _ hpart hkind
    have hunion : (e.tree.get? [0]).map (·.value.kind) =
        some (.union [.atom .bool, .operator "flag"]) := by decide +kernel
    rw [hpart, Option.map_some, hkind] at hunion
    obtain rfl := Kind.union.inj (Option.some.inj hunion)
    decide
  have hmiss : (e.apply ⟨[0], .selectVariant "none"⟩).map (·.1.changed) = .ok false := by
    decide +kernel
  have hdone : (e.apply event).map (·.1.changed) = .ok true := by decide +kernel
  have hpast : e.history.past = [] := by decide +kernel
  refine ⟨he, by decide +kernel, hevent, ?_, ?_⟩
  · obtain ⟨⟨outcome, e'⟩, happly, hchanged⟩ := map_eq_ok hmiss
    obtain rfl := (apply_changed_exact he happly).1 hchanged
    exact ⟨outcome, happly, hchanged⟩
  · obtain ⟨⟨outcome, e'⟩, happly, hchanged⟩ := map_eq_ok hdone
    obtain ⟨hnone, hother, hhistory⟩ := (apply_changed_exact he happly).2 hchanged
    rw [hpast] at hhistory
    exact ⟨outcome, e', happly, hchanged, hnone, hother hevent, hhistory⟩

end Editor

/-! ## The focus after an addition -/

namespace Grammar

variable {g : Grammar} {t : FormulaTree}

theorem exists_applyEdit_listRemove {above : FormulaTree} {parent : NodePath} {index : Nat}
    {element : Kind} (habove : t.get? parent = some above)
    (hlist : above.value.kind = .list element) (hindex : index ≤ above.children.length)
    (fresh : FormulaTree) :
    ∃ focus, g.applyEdit ((Change.insert parent index fresh).on t)
      ⟨parent ++ [index], .listRemove⟩ = .ok (t, ⟨true, focus, none⟩) := by
  have hparent : ((Change.insert parent index fresh).on t).get? parent =
      some (above.alterChildren (·.insertIdx index fresh)) := by
    rw [Change.on, Tree.get?_alterAt, habove, Option.map_some]
  have hnew : ((Change.insert parent index fresh).on t).get? (parent ++ [index]) = some fresh := by
    rw [Tree.get?_append, hparent, Option.bind_some, Tree.get?_cons, Tree.alterChildren,
      Tree.children_node, List.getElem?_insertIdx_self, if_pos hindex]
    rfl
  have helement : elementOf? ((Change.insert parent index fresh).on t) (parent ++ [index]) =
      some (parent, index, element) := by
    refine elementOf?_eq_some_iff.mpr ⟨rfl, ?_⟩
    rw [Tree.value?, hparent, Option.map_some, Option.map_some, ← hlist]
    rfl
  obtain ⟨focus, hplan⟩ : ∃ focus, g.planned ((Change.insert parent index fresh).on t)
      ⟨parent ++ [index], .listRemove⟩ = .ok (.make (.remove parent index) focus) := by
    simp only [planned, hnew, removalPlan, helement]
    exact ⟨_, rfl⟩
  have hback := Change.remove_on_insert_on parent index fresh t
  exact ⟨focus, applyEdit_eq_ok_iff.mpr ⟨_, hplan, hback.symm, rfl⟩⟩

/-- **An addition is taken back at its focus.** If adding an element changes a formula, removing the
node that is in focus then changes it back, to exactly the formula it was. This is so whether the
path was that of a list or of an element, or of an element that is a list itself. -/
theorem listRemove_takes_back_listAdd (g : Grammar) (t : FormulaTree) (path : NodePath)
    {t' : FormulaTree} {outcome : Outcome}
    (hadd : g.applyEdit t ⟨path, .listAdd⟩ = .ok (t', outcome))
    (hchanged : outcome.changed = true) :
    ∃ focus, g.applyEdit t' ⟨outcome.focus, .listRemove⟩ = .ok (t, ⟨true, focus, none⟩) := by
  obtain ⟨plan, hplan, rfl, rfl⟩ := applyEdit_eq_ok_iff.mp hadd
  cases plan with
  | keep miss => cases hchanged
  | make change focus =>
    cases plans_of_planned hplan with
    | push here list => exact exists_applyEdit_listRemove here list le_rfl _
    | insert here _ list =>
      obtain ⟨above, habove, hindex⟩ := Tree.exists_parent here
      rw [Tree.value?, habove] at list
      exact exists_applyEdit_listRemove habove (Option.some.inj list)
        (List.getElem?_eq_some_iff.mp hindex).1 _

/-- An element goes to the end of a list that is an element itself, with a folded list beside it and
a text that is no truth value in it. -/
theorem listRemove_takes_back_listAdd_nested :
    let element := fun text ↦ (.leaf (.ofAtom .bool text) : FormulaTree)
    let list : Kind := .list (.atom .bool)
    let t : FormulaTree := .node (.plain (.list list))
      [.node (.plain list) [element "maybe"], .leaf (Node.toggle (.plain list))]
    let t' : FormulaTree := .node (.plain (.list list))
      [.node (.plain list) [element "maybe", element "false"], .leaf (Node.toggle (.plain list))]
    empty.applyEdit t ⟨[0], .listAdd⟩ = .ok (t', ⟨true, [0, 1], none⟩) ∧
      ∃ focus, empty.applyEdit t' ⟨[0, 1], .listRemove⟩ = .ok (t, ⟨true, focus, none⟩) := by
  intro element list t t'
  have hadd : empty.applyEdit t ⟨[0], .listAdd⟩ = .ok (t', ⟨true, [0, 1], none⟩) := by
    decide +kernel
  exact ⟨hadd, listRemove_takes_back_listAdd empty t [0] hadd rfl⟩

end Grammar

end FormulaEdit
