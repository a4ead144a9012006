import FormulaEdit.Proofs.Offer

/-!
# Two ways to the operator at the root

The operator at the root can be chosen as such, or selected by an edit of the root. The two go
separate ways. A choice compares and looks up the name by itself and notes the new formula; an edit
goes through a cursor and the rules that hold for operators anywhere. They report the same and lead
to the same formula with the same text.

There are two differences. An edit keeps whether the root is folded, and a choice unfolds it. And
the history calls them by different names. `Editor.AgreesWith` says that nothing else differs.
-/

namespace FormulaEdit

theorem Tree.modify_setOpen_self (t : FormulaTree) :
    t.modify (·.setOpen t.value.flags.isOpen) = t := by
  obtain ⟨node, parts⟩ := t
  rfl

theorem render_modify_setOpen (isOpen : Bool) (t : FormulaTree) :
    render (t.modify (·.setOpen isOpen)) = render t := by
  obtain ⟨node, parts⟩ := t
  rw [render, render, Tree.modify, renderAt.eq_def, renderAt.eq_def]
  rfl

namespace Grammar

variable {g : Grammar}

theorem freshOperator_isOpen {name : String} {t : FormulaTree} (h : g.freshOperator name = .ok t) :
    t.value.flags.isOpen = true := by
  obtain ⟨_, hbuild⟩ := freshOperator_eq_ok_iff.mp h
  obtain ⟨_, _, _, _, rfl⟩ := buildWithin_operator_eq_ok_iff.mp hbuild
  rfl

/-- Selecting an operator at the root asks for no category. -/
theorem selectOperator_ofTree {t : FormulaTree} {current : String}
    (hkind : t.value.kind = .operator current) (name : String) :
    g.selectOperator (.ofTree t) name =
      if current = name then .ok (.idle (.ofTree t))
      else if !g.has name then .ok (.missed (.ofTree t) (.unknownOperator name))
      else (g.freshOperator name).map fun fresh ↦
        .done (.ofTree (fresh.modify (·.setOpen t.value.flags.isOpen))) := by
  have hroot : (Cursor.ofTree t).value.kind = .operator current := hkind
  rw [selectOperator]
  simp only [hroot]
  split_ifs with _ _ hmatch
  · rfl
  · rfl
  · cases hmatch
  · cases g.freshOperator name with
    | ok fresh => rfl
    | error error => rfl

end Grammar

theorem History.map_state_record {σ : Type} (h : History σ) (previous : σ)
    (description other : String) :
    (h.record previous description).past.map Snapshot.state =
      (h.record previous other).past.map Snapshot.state := by
  simp only [record, List.length_cons]
  split_ifs
  · rw [List.map_dropLast, List.map_dropLast, List.map_cons, List.map_cons]
  · rfl

namespace Editor

variable {g : Grammar} {e : Editor}

/-- Two editors that differ at most in whether the root is folded and in what the history calls the
edits. -/
structure AgreesWith (e e' : Editor) : Prop where
  /-- The grammar is the same. -/
  grammar : e.grammar = e'.grammar
  /-- With the root unfolded in both or folded in both, the formulas are the same. -/
  tree : ∀ isOpen, e.tree.modify (·.setOpen isOpen) = e'.tree.modify (·.setOpen isOpen)
  /-- The text, the text that was sent last and what came back are the same. -/
  formula : e.formula = e'.formula
  /-- The formulas to go back to are the same. -/
  past : e.history.past.map Snapshot.state = e'.history.past.map Snapshot.state
  /-- The formulas to go forward to are the same. -/
  future : e.history.future = e'.history.future
  /-- As many formulas are kept. -/
  limit : e.history.limit = e'.history.limit
  /-- The errors in the description of the grammar are the same. -/
  startupErrors : e.startupErrors = e'.startupErrors

theorem AgreesWith.refl (e : Editor) : e.AgreesWith e :=
  ⟨rfl, fun _ ↦ rfl, rfl, rfl, rfl, rfl, rfl⟩

/-- To fold a formula before it is noted, or to call the edit otherwise, makes no other
difference. -/
theorem commit_agreesWith (e : Editor) (t : FormulaTree) (isOpen : Bool)
    (description other : String) :
    (e.commit t description).AgreesWith (e.commit (t.modify (·.setOpen isOpen)) other) where
  grammar := rfl
  tree := by
    intro isOpen'
    obtain ⟨node, parts⟩ := t
    rfl
  formula := by
    simp only [commit, setTree, render_modify_setOpen]
  past := e.history.map_state_record e.tree description other
  future := rfl
  limit := rfl
  startupErrors := rfl

/-- **The two ways to the operator at the root agree.** For any name, to choose the operator and to
select it at the root succeed and report the same. They lead to editors that differ at most in
whether the root is folded, which only a selection keeps, and in the words of the history. So if the
root is unfolded the formulas are the same. -/
theorem chooseOperator_agrees_selectOperator (description : Json) {errors : List GrammarError}
    {g : Grammar} (hload : Grammar.ofJson description = (errors, g)) {e : Editor}
    (he : Reachable g e) (name : String) :
    ∃ outcome chosen selected, e.chooseOperator name = .ok (outcome, chosen) ∧
      e.apply ⟨[], .selectOperator name⟩ = .ok (outcome, selected) ∧
      chosen.AgreesWith selected ∧
      selected.tree.value.flags.isOpen = e.tree.value.flags.isOpen ∧
      (e.tree.value.flags.isOpen = true → chosen.tree = selected.tree) := by
  obtain rfl : (Grammar.ofJson description).2 = g := congrArg Prod.snd hload
  have hsound := he.sound
  have hg : e.grammar.Consistent := hsound.grammar ▸ Grammar.ofJson_consistent description
  obtain ⟨current, hkind⟩ := hsound.tree.2
  have hselect := e.apply_path (c := .ofTree e.tree) rfl (.selectOperator name)
  rw [Grammar.editAt, Grammar.selectOperator_ofTree hkind] at hselect
  have hsame : e.tree.value.kind = .operator name ↔ current = name := by simp [hkind]
  rw [chooseOperator]
  simp only [hsame]
  split_ifs at hselect ⊢ with hcurrent hhas
  · exact ⟨_, e, e, rfl, hselect, .refl e, rfl, fun _ ↦ rfl⟩
  · exact ⟨_, e, e, rfl, hselect, .refl e, rfl, fun _ ↦ rfl⟩
  · obtain ⟨fresh, hfresh⟩ := hg.exists_freshOperator (by simpa using hhas)
    rw [hfresh] at hselect ⊢
    refine ⟨_, _, _, rfl, hselect, e.commit_agreesWith fresh _ _ _, ?_, fun hopen ↦ ?_⟩
    · obtain ⟨node, parts⟩ := fresh
      rfl
    · have hself := fresh.modify_setOpen_self
      rw [Grammar.freshOperator_isOpen hfresh] at hself
      rw [hopen]
      exact hself.symm

/-- Where the root is folded, a choice unfolds it and a selection does not. -/
theorem chooseOperator_agrees_selectOperator_folded :
    let g := (Grammar.ofJson logic).2
    let e := run (ofTree g (.node (.plain (.operator "flag")) [.leaf (.ofAtom .bool "false")]))
      [.command (.edit ⟨[], .toggleOpen⟩)]
    Reachable g e ∧ e.tree.value.flags.isOpen = false ∧ ∃ outcome chosen selected,
      e.chooseOperator "test" = .ok (outcome, chosen) ∧
      e.apply ⟨[], .selectOperator "test"⟩ = .ok (outcome, selected) ∧ outcome.changed = true ∧
      chosen.AgreesWith selected ∧ chosen.tree.value.flags.isOpen = true ∧
      selected.tree.value.flags.isOpen = false := by
  intro g e
  have hlaunch : launch g none = .ok (ofTree g (.node (.plain (.operator "flag"))
      [.leaf (.ofAtom .bool "false")])) := by decide +kernel
  have he : Reachable g e := (launch_reachable hlaunch).run _
  have hfolded : e.tree.value.flags.isOpen = false := by decide +kernel
  have hresult : (e.chooseOperator "test").map (fun result ↦
      (result.1.changed, result.2.tree.value.flags.isOpen)) = .ok (true, true) := by decide +kernel
  obtain ⟨outcome, chosen, selected, hchosen, hselected, hagrees, hkept, _⟩ :=
    chooseOperator_agrees_selectOperator logic Prod.mk.eta.symm he "test"
  rw [hchosen] at hresult
  obtain ⟨hchanged, hopen⟩ := Prod.mk.inj (Except.ok.inj hresult)
  exact ⟨he, hfolded, outcome, chosen, selected, hchosen, hselected, hchanged, hagrees, hopen,
    hkept.trans hfolded⟩

end Editor

end FormulaEdit
