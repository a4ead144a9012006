import FormulaEdit.Editor.Session
import FormulaEdit.Proofs.Edit
import FormulaEdit.Proofs.Load

/-!
# Runs of an editor

An editor is driven by calls that may all fail: edits with paths that lead nowhere, operators that
do not exist, going back where nothing is behind. Whatever is called, the formula keeps the shape
that the grammar asks for, and so does every formula that the history holds for later. The invariant
is `Editor.Sound`; one call preserves it (`Sound.after`), hence every run does (`Sound.run`).

Nothing in this is particular to the shape. A condition on formulas that new ones meet and that
edits keep (`Grammar.Keeps`) holds along every run, of the present formula and of the history.

A run starts from a formula of defaults. For a loaded grammar there is one for each operator,
because loading leaves out the operators that cannot be built.
-/

namespace FormulaEdit

/-! ## Histories -/

namespace History

variable {σ : Type} {p : σ → Prop}

/-- A condition on every state of a history. -/
def Holds (p : σ → Prop) (h : History σ) : Prop :=
  (∀ s ∈ h.past, p s.state) ∧ ∀ s ∈ h.future, p s.state

theorem holds_empty (p : σ → Prop) (limit : Nat) : (empty limit).Holds p :=
  ⟨by simp [empty], by simp [empty]⟩

theorem Holds.imp {q : σ → Prop} {h : History σ} (hh : h.Holds p) (hpq : ∀ s, p s → q s) :
    h.Holds q :=
  ⟨fun s hs ↦ hpq _ (hh.1 s hs), fun s hs ↦ hpq _ (hh.2 s hs)⟩

theorem Holds.record {h : History σ} {previous : σ} (hh : h.Holds p) (hp : p previous)
    (description : String) : (h.record previous description).Holds p := by
  have hpast : ∀ s ∈ (⟨previous, description⟩ :: h.past : List (Snapshot σ)), p s.state := by
    simpa using ⟨hp, hh.1⟩
  refine ⟨fun s hs ↦ hpast s ?_, by simp [History.record]⟩
  simp only [History.record] at hs
  split at hs
  · exact (List.dropLast_subset _) hs
  · exact hs

theorem Holds.undo {h h' : History σ} {current state : σ} (hh : h.Holds p) (hp : p current)
    (hundo : h.undo? current = some (state, h')) : p state ∧ h'.Holds p := by
  obtain ⟨past, future, limit⟩ := h
  cases past with
  | nil => cases hundo
  | cons last past =>
    cases hundo
    refine ⟨hh.1 last List.mem_cons_self, fun s hs ↦ hh.1 s (List.mem_cons_of_mem _ hs), ?_⟩
    simpa using ⟨hp, hh.2⟩

theorem Holds.redo {h h' : History σ} {current state : σ} (hh : h.Holds p) (hp : p current)
    (hredo : h.redo? current = some (state, h')) : p state ∧ h'.Holds p := by
  obtain ⟨past, future, limit⟩ := h
  cases future with
  | nil => cases hredo
  | cons next future =>
    cases hredo
    refine ⟨hh.2 next List.mem_cons_self, ?_, fun s hs ↦ hh.2 s (List.mem_cons_of_mem _ hs)⟩
    simpa using ⟨hp, hh.1⟩

end History

/-- A formula that passes the check, with an operator of the grammar at its root. -/
def Grammar.Valid (g : Grammar) (t : FormulaTree) : Prop :=
  g.faultIn? t = none ∧ ∃ op ∈ g.operators, t.value.kind = .operator op.name

theorem Grammar.Formed.valid {g : Grammar} {t : FormulaTree} (h : g.Formed t) : g.Valid t := by
  obtain ⟨hshaped, name, hname⟩ := h
  refine ⟨faultIn?_eq_none_iff.mpr hshaped, ?_⟩
  obtain ⟨node, parts⟩ := t
  obtain ⟨haccepts, _⟩ := shaped_node_iff.mp hshaped
  rw [Tree.value_node] at hname
  rw [hname] at haccepts
  obtain ⟨op, hop, _⟩ := haccepts
  refine ⟨op, List.mem_of_find?_eq_some hop, ?_⟩
  have hopname : op.name = name := by simpa using List.find?_some hop
  rw [Tree.value_node, hname, hopname]

/-- A condition that new formulas meet and that edits keep. -/
structure Grammar.Keeps (g : Grammar) (p : FormulaTree → Prop) : Prop where
  /-- A new formula meets it. -/
  fresh : ∀ {name : String} {t : FormulaTree}, g.freshOperator name = .ok t → p t
  /-- An edit keeps it. -/
  edit : ∀ {t t' : FormulaTree} {event : EditEvent} {outcome : Outcome}, p t →
    g.applyEdit t event = .ok (t', outcome) → p t'

theorem Grammar.keeps_formed {g : Grammar} : g.Keeps g.Formed :=
  ⟨freshOperator_formed, Formed.applyEdit⟩

/-! ## Calls and runs -/

namespace Editor

/-- The editor after a call. A call that fails leaves it as it is. -/
def after (e : Editor) : SessionEvent → Editor
  | .command command =>
    match Session.perform e command with
    | .ok (_, e') => e'
    | .error _ => e
  | .answer answer => e.highlight answer
  | .tick => e.tick.2

def run (e : Editor) (events : List SessionEvent) : Editor := events.foldl after e

end Editor

theorem Session.step_editor (s : Session) (event : SessionEvent) :
    (s.step event).editor = s.editor.after event := by
  cases event with
  | command command =>
    rw [step, handle, Editor.after]
    cases perform s.editor command with
    | ok result => rfl
    | error e => rfl
  | answer answer => rfl
  | tick =>
    rw [step, tick, Editor.after]
    obtain ⟨_ | text, e⟩ := s.editor.tick
    · rfl
    · rfl

theorem Editor.undo?_eq_some {e e' : Editor} (h : e.undo? = some e') :
    ∃ t history, e.history.undo? e.tree = some (t, history) ∧
      e' = { e.setTree t with history } := by
  rw [undo?] at h
  split at h
  · next t history hhistory =>
    cases h
    exact ⟨t, history, hhistory, rfl⟩
  · cases h

theorem Editor.redo?_eq_some {e e' : Editor} (h : e.redo? = some e') :
    ∃ t history, e.history.redo? e.tree = some (t, history) ∧
      e' = { e.setTree t with history } := by
  rw [redo?] at h
  split at h
  · next t history hhistory =>
    cases h
    exact ⟨t, history, hhistory, rfl⟩
  · cases h

/-- **What a command can do.** It reports no change and makes none, it notes a new formula with a
description, or it takes a formula from the history. -/
theorem Session.perform_cases {e e' : Editor} {command : SessionCommand} {outcome : Outcome}
    (h : perform e command = .ok (outcome, e')) :
    (outcome.changed = false ∧ e' = e) ∨ (outcome.changed = true ∧
      ((∃ event t, command = .edit event ∧ e' = e.commit t event.edit.description) ∨
        (∃ name t, command = .choose name ∧ e' = e.commit t s!"choose operator {name}") ∨
        (∃ t history, command = .undo ∧ e.history.undo? e.tree = some (t, history) ∧
          e' = { e.setTree t with history }) ∨
        ∃ t history, command = .redo ∧ e.history.redo? e.tree = some (t, history) ∧
          e' = { e.setTree t with history })) := by
  cases command with
  | edit event =>
    rw [perform, Editor.apply] at h
    split at h
    · cases h
    · next t _ _ =>
      cases h
      split
      · next hchanged => exact Or.inr ⟨hchanged, Or.inl ⟨event, t, rfl, rfl⟩⟩
      · next hchanged => exact Or.inl ⟨by simpa using hchanged, rfl⟩
  | choose name =>
    rw [perform, Editor.chooseOperator] at h
    split at h
    · cases h
      exact Or.inl ⟨rfl, rfl⟩
    · split at h
      · cases h
        exact Or.inl ⟨rfl, rfl⟩
      · split at h
        · next t _ =>
          cases h
          exact Or.inr ⟨rfl, Or.inr (Or.inl ⟨name, t, rfl, rfl⟩)⟩
        · cases h
  | undo =>
    cases h
    cases hundo : e.undo? with
    | none => exact Or.inl ⟨rfl, rfl⟩
    | some e' =>
      obtain ⟨t, history, hhistory, rfl⟩ := Editor.undo?_eq_some hundo
      exact Or.inr ⟨rfl, Or.inr (Or.inr (Or.inl ⟨t, history, rfl, hhistory, rfl⟩))⟩
  | redo =>
    cases h
    cases hredo : e.redo? with
    | none => exact Or.inl ⟨rfl, rfl⟩
    | some e' =>
      obtain ⟨t, history, hhistory, rfl⟩ := Editor.redo?_eq_some hredo
      exact Or.inr ⟨rfl, Or.inr (Or.inr (Or.inr ⟨t, history, rfl, hhistory, rfl⟩))⟩

namespace Editor

variable {g : Grammar} {e e' : Editor}

/-! ## What every call keeps -/

/-- A condition on the present formula and on every formula of the history. -/
def Holds (p : FormulaTree → Prop) (e : Editor) : Prop := p e.tree ∧ e.history.Holds p

theorem holds_ofTree {p : FormulaTree → Prop} {t : FormulaTree} (h : p t) :
    (ofTree g t).Holds p :=
  ⟨h, History.holds_empty _ _⟩

theorem after_grammar (e : Editor) (event : SessionEvent) :
    (e.after event).grammar = e.grammar := by
  cases event with
  | command command =>
    rw [after]
    split
    · next hperform =>
      obtain ⟨_, rfl⟩ | ⟨_, ⟨_, _, _, rfl⟩ | ⟨_, _, _, rfl⟩ | ⟨_, _, _, _, rfl⟩ |
        ⟨_, _, _, _, rfl⟩⟩ := Session.perform_cases hperform
      all_goals rfl
    · rfl
  | answer answer => rfl
  | tick => rfl

theorem run_grammar (e : Editor) (events : List SessionEvent) :
    (e.run events).grammar = e.grammar := by
  induction events generalizing e with
  | nil => rfl
  | cons event events ih => exact (ih (e.after event)).trans (e.after_grammar event)

section Holds

variable {p : FormulaTree → Prop} (hp : e.grammar.Keeps p)

include hp

theorem Holds.perform (h : e.Holds p) {command : SessionCommand} {outcome : Outcome}
    (hperform : Session.perform e command = .ok (outcome, e')) : e'.Holds p := by
  cases command with
  | edit event =>
    rw [Session.perform, apply] at hperform
    split at hperform
    · cases hperform
    · next t _ ht =>
      cases hperform
      split
      · exact ⟨hp.edit h.1 ht, h.2.record h.1 _⟩
      · exact h
  | choose name =>
    rw [Session.perform, chooseOperator] at hperform
    split at hperform
    · cases hperform
      exact h
    · split at hperform
      · cases hperform
        exact h
      · split at hperform
        · next t ht =>
          cases hperform
          exact ⟨hp.fresh ht, h.2.record h.1 _⟩
        · cases hperform
  | undo =>
    cases hperform
    cases hundo : e.undo? with
    | none => exact h
    | some e' =>
      obtain ⟨t, history, hhistory, rfl⟩ := undo?_eq_some hundo
      exact h.2.undo h.1 hhistory
  | redo =>
    cases hperform
    cases hredo : e.redo? with
    | none => exact h
    | some e' =>
      obtain ⟨t, history, hhistory, rfl⟩ := redo?_eq_some hredo
      exact h.2.redo h.1 hhistory

theorem Holds.after (h : e.Holds p) (event : SessionEvent) : (e.after event).Holds p := by
  cases event with
  | command command =>
    rw [Editor.after]
    split
    · next hperform => exact h.perform hp hperform
    · exact h
  | answer answer => exact h
  | tick => exact h

/-- **A run keeps what new formulas meet and edits keep**, in the formula and in the history. -/
theorem Holds.run (h : e.Holds p) (events : List SessionEvent) : (e.run events).Holds p := by
  induction events generalizing e with
  | nil => exact h
  | cons event events ih => exact ih (e.after_grammar event ▸ hp) (h.after hp event)

end Holds

/-- An editor all of whose formulas, present, past and future, are those of a grammar. -/
structure Sound (g : Grammar) (e : Editor) : Prop where
  /-- The grammar stays the same. -/
  grammar : e.grammar = g
  /-- The present formula. -/
  tree : g.Formed e.tree
  /-- The formulas kept for later. -/
  history : e.history.Holds g.Formed

theorem sound_iff : Sound g e ↔ e.grammar = g ∧ e.Holds g.Formed :=
  ⟨fun h ↦ ⟨h.grammar, h.tree, h.history⟩, fun h ↦ ⟨h.1, h.2.1, h.2.2⟩⟩

theorem Sound.after (h : Sound g e) (event : SessionEvent) : Sound g (e.after event) := by
  obtain ⟨rfl, hholds⟩ := sound_iff.mp h
  exact sound_iff.mpr ⟨e.after_grammar event, hholds.after Grammar.keeps_formed event⟩

theorem Sound.run (h : Sound g e) (events : List SessionEvent) : Sound g (e.run events) := by
  obtain ⟨rfl, hholds⟩ := sound_iff.mp h
  exact sound_iff.mpr ⟨e.run_grammar events, hholds.run Grammar.keeps_formed events⟩

/-! ## Editors on loaded grammars -/

theorem startWith_eq_ok_iff {name : String} :
    startWith g name = .ok e ↔ ∃ t, g.freshOperator name = .ok t ∧ e = ofTree g t := by
  rw [startWith]
  constructor
  · intro h
    split at h
    · split at h
      · next t ht =>
        cases h
        exact ⟨t, ht, rfl⟩
      · cases h
    · cases h
  · rintro ⟨t, ht, rfl⟩
    rw [if_pos (Grammar.freshOperator_eq_ok_iff.mp ht).1, ht]

theorem launch_eq_ok {name : Option String} (h : launch g name = .ok e) :
    ∃ name t, g.freshOperator name = .ok t ∧ e = ofTree g t := by
  cases name with
  | some name => exact ⟨name, startWith_eq_ok_iff.mp h⟩
  | none =>
    rw [launch, start] at h
    split at h
    · next op _ => exact ⟨op.name, startWith_eq_ok_iff.mp h⟩
    · cases h

theorem launch_sound {name : Option String} (h : launch g name = .ok e) : Sound g e := by
  obtain ⟨name, t, ht, rfl⟩ := launch_eq_ok h
  exact sound_iff.mpr ⟨rfl, holds_ofTree (Grammar.freshOperator_formed ht)⟩

theorem exists_startWith (description : Json) {name : String}
    (hname : name ∈ (Grammar.ofJson description).2.names) :
    ∃ e, startWith (Grammar.ofJson description).2 name = .ok e := by
  obtain ⟨t, ht, _⟩ :=
    Grammar.exists_buildOperator hname (Grammar.ofJson_hasDepth description name hname)
  refine ⟨_, startWith_eq_ok_iff.mpr ⟨t, ?_, rfl⟩⟩
  rw [Grammar.freshOperator, ht]
  rfl

/-- **Every run keeps to the shape.** Each operator of a loaded grammar starts an editor, and after
any calls whatsoever on an editor that started, the formula and all those in the history pass the
check and have an operator of the grammar at their root. -/
theorem run_valid (description : Json) {errors : List GrammarError} {g : Grammar}
    (hload : Grammar.ofJson description = (errors, g)) :
    (∀ op ∈ g.operators, ∃ e, startWith g op.name = .ok e) ∧
      (g.operators ≠ [] → ∃ e, start g = .ok e) ∧
      ∀ name e, launch g name = .ok e → ∀ events,
        g.Valid (e.run events).tree ∧ (e.run events).history.Holds g.Valid := by
  obtain rfl : (Grammar.ofJson description).2 = g := congrArg Prod.snd hload
  have hstart : ∀ op ∈ (Grammar.ofJson description).2.operators, ∃ e,
      startWith (Grammar.ofJson description).2 op.name = .ok e :=
    fun op hop ↦ exists_startWith description (List.mem_map_of_mem hop)
  refine ⟨hstart, fun hne ↦ ?_, fun name e he events ↦ ?_⟩
  · rw [start, Grammar.start?, List.head?_eq_some_head hne]
    exact hstart _ (List.head_mem hne)
  · have hsound := (launch_sound he).run events
    exact ⟨hsound.tree.valid, hsound.history.imp fun _ ↦ Grammar.Formed.valid⟩

/-- A description with a category of two operators and an operator outside of it. -/
def logic : Json :=
  .arr [Grammar.entry "flag" (some "Term") [("value", "bool")],
    Grammar.entry "all" (some "Term") [("terms", "List[Term]")],
    Grammar.entry "test" none [("of", "Union[bool, Term]")]]

theorem run_valid_logic :
    let g := (Grammar.ofJson logic).2
    let e := ofTree g (.node (.plain (.operator "flag")) [.leaf (.ofAtom .bool "false")])
    let e' := e.run [.command (.choose "test"), .command (.edit ⟨[0], .selectVariant "1"⟩),
      .command (.edit ⟨[0, 0], .selectOperator "all"⟩), .command (.edit ⟨[7], .toggleOpen⟩),
      .command .undo, .tick]
    launch g none = .ok e ∧ e'.history.past.length = 2 ∧ e'.history.future.length = 1 ∧
      g.Valid e'.tree ∧ e'.history.Holds g.Valid := by
  intro g e e'
  have hlaunch : launch g none = .ok e := by decide +kernel
  obtain ⟨_, _, hrun⟩ := run_valid logic Prod.mk.eta.symm
  exact ⟨hlaunch, by decide +kernel, by decide +kernel, hrun none e hlaunch _⟩

end Editor

end FormulaEdit
