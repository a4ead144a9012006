import FormulaEdit.Proofs.Debounce

/-!
# Commands among ticks and answers

A session takes commands, ticks and answers in whichever order they come. Ticks move the text that
was sent last, answers move what came back, and a command reads neither: on an editor that shows
something else it does the same (`Editor.perform_repaint`). So the work of a session is the work of
its commands, wherever ticks and answers come in between.

Sessions with the same work are related by `Session.SameWork`. Ticks and answers leave a session
with the same work as before, and a command leads from the same work to the same work. Hence a run
does the work of its commands handled one after the other (`Session.SameWork.run_commands`), and two
runs are compared through these.
-/

namespace FormulaEdit

def SessionEvent.commands (events : List SessionEvent) : List SessionCommand :=
  events.filterMap fun
    | .command request => some request
    | _ => none

/-! ## Commands on editors that differ in what was sent and what came back -/

namespace Editor

/-- The editor with another text sent last and another answer. -/
def repaint (e : Editor) (rendered : String) (code : Code) : Editor :=
  { e with formula := { e.formula with rendered, code } }

theorem commit_repaint (e : Editor) (rendered : String) (code : Code) (t : FormulaTree)
    (description : String) :
    (e.repaint rendered code).commit t description =
      (e.commit t description).repaint rendered code := rfl

theorem undo?_repaint (e : Editor) (rendered : String) (code : Code) :
    (e.repaint rendered code).undo? = e.undo?.map (·.repaint rendered code) := by
  have hhistory : (e.repaint rendered code).history.undo? (e.repaint rendered code).tree =
      e.history.undo? e.tree := rfl
  rw [undo?, undo?, hhistory]
  cases e.history.undo? e.tree <;> rfl

theorem redo?_repaint (e : Editor) (rendered : String) (code : Code) :
    (e.repaint rendered code).redo? = e.redo?.map (·.repaint rendered code) := by
  have hhistory : (e.repaint rendered code).history.redo? (e.repaint rendered code).tree =
      e.history.redo? e.tree := rfl
  rw [redo?, redo?, hhistory]
  cases e.history.redo? e.tree <;> rfl

/-- **A command does not look at what was sent or came back.** It fails or not, reports the same and
leads to the same editor up to these two, which it leaves as they are. -/
theorem perform_repaint (e : Editor) (rendered : String) (code : Code) (command : SessionCommand) :
    Session.perform (e.repaint rendered code) command =
      (Session.perform e command).map (Prod.map id (·.repaint rendered code)) := by
  cases command with
  | edit event =>
    have hedit : (e.repaint rendered code).grammar.applyEdit (e.repaint rendered code).tree event =
        e.grammar.applyEdit e.tree event := rfl
    rw [Session.perform, Session.perform, apply, apply, hedit]
    cases e.grammar.applyEdit e.tree event with
    | error error => rfl
    | ok result =>
      obtain ⟨t, outcome⟩ := result
      by_cases hchanged : outcome.changed = true
      · simp only [if_pos hchanged, commit_repaint]
        rfl
      · simp only [if_neg hchanged]
        rfl
  | choose name =>
    rw [Session.perform, Session.perform, chooseOperator, chooseOperator]
    have htree : (e.repaint rendered code).tree = e.tree := rfl
    have hgrammar : (e.repaint rendered code).grammar = e.grammar := rfl
    rw [htree, hgrammar]
    split
    · rfl
    · split
      · rfl
      · cases e.grammar.freshOperator name <;> rfl
  | undo =>
    rw [Session.perform, Session.perform, undo?_repaint]
    cases e.undo? <;> rfl
  | redo =>
    rw [Session.perform, Session.perform, redo?_repaint]
    cases e.redo? <;> rfl

/-- The editor as if nothing was sent and nothing came back. -/
def bare (e : Editor) : Editor := e.repaint "" (.markup .empty)

theorem bare_tick (e : Editor) : e.tick.2.bare = e.bare := by
  rw [tick_eq]
  split <;> rfl

theorem eq_repaint_of_bare_eq {e₁ e₂ : Editor} (h : e₁.bare = e₂.bare) :
    e₁ = e₂.repaint e₁.formula.rendered e₁.formula.code := by
  have hrepaint : e₁.bare.repaint e₁.formula.rendered e₁.formula.code =
      e₂.bare.repaint e₁.formula.rendered e₁.formula.code := by rw [h]
  exact hrepaint

end Editor

/-! ## Sessions with the same work -/

namespace Session

open SessionEvent (commands answers)

def run (s : Session) (events : List SessionEvent) : Session := events.foldl step s

theorem run_editor (s : Session) (events : List SessionEvent) :
    (s.run events).editor = s.editor.run events := by
  induction events generalizing s with
  | nil => rfl
  | cons event events ih =>
    rw [run, List.foldl_cons, ← run, ih, step_editor]
    rfl

/-- Sessions that differ in the text sent last, in what came back and in what they published, and in
nothing else. -/
structure SameWork (s₁ s₂ : Session) : Prop where
  editor : s₁.editor.bare = s₂.editor.bare
  handled : s₁.handled = s₂.handled
  lastOutcome : s₁.lastOutcome = s₂.lastOutcome
  lastError : s₁.lastError = s₂.lastError

variable {s₁ s₂ s₃ : Session}

theorem SameWork.refl (s : Session) : SameWork s s := ⟨rfl, rfl, rfl, rfl⟩

theorem SameWork.symm (h : SameWork s₁ s₂) : SameWork s₂ s₁ :=
  ⟨h.editor.symm, h.handled.symm, h.lastOutcome.symm, h.lastError.symm⟩

theorem SameWork.trans (h₁ : SameWork s₁ s₂) (h₂ : SameWork s₂ s₃) : SameWork s₁ s₃ :=
  ⟨h₁.editor.trans h₂.editor, h₁.handled.trans h₂.handled, h₁.lastOutcome.trans h₂.lastOutcome,
    h₁.lastError.trans h₂.lastError⟩

theorem sameWork_answer (s : Session) (answer : Highlighting) : SameWork (s.answer answer) s :=
  ⟨rfl, rfl, rfl, rfl⟩

theorem sameWork_tick (s : Session) : SameWork s.tick.2 s := by
  have heditor : s.tick.2.editor.bare = s.editor.bare := by
    rw [← s.editor.bare_tick]
    exact congrArg Editor.bare (s.step_editor .tick)
  rw [tick] at heditor ⊢
  split at heditor
  · exact ⟨heditor, rfl, rfl, rfl⟩
  · exact ⟨heditor, rfl, rfl, rfl⟩

theorem SameWork.handle (h : SameWork s₁ s₂) (command : SessionCommand) :
    SameWork (s₁.handle command) (s₂.handle command) := by
  have hperform : (perform s₁.editor command).map (Prod.map id Editor.bare) =
      (perform s₂.editor command).map (Prod.map id Editor.bare) := by
    have hbare : perform s₁.editor.bare command = perform s₂.editor.bare command := by
      rw [h.editor]
    rwa [Editor.bare, Editor.bare, Editor.perform_repaint, Editor.perform_repaint] at hbare
  -- so both fail with the same error, or both lead to the same editor up to what it shows
  rw [Session.handle, Session.handle]
  cases h₁ : perform s₁.editor command with
  | error error₁ =>
    cases h₂ : perform s₂.editor command with
    | error error₂ =>
      rw [h₁, h₂] at hperform
      cases hperform
      exact ⟨h.editor, congrArg (· + 1) h.handled, rfl, rfl⟩
    | ok result₂ =>
      rw [h₁, h₂] at hperform
      cases hperform
  | ok result₁ =>
    cases h₂ : perform s₂.editor command with
    | error error₂ =>
      rw [h₁, h₂] at hperform
      cases hperform
    | ok result₂ =>
      obtain ⟨outcome₁, e₁⟩ := result₁
      obtain ⟨outcome₂, e₂⟩ := result₂
      rw [h₁, h₂] at hperform
      obtain ⟨houtcome, heditor⟩ := Prod.mk.inj (Except.ok.inj hperform)
      exact ⟨heditor, congrArg (· + 1) h.handled, congrArg some houtcome, rfl⟩

/-- **A run does the work of its commands.** -/
theorem SameWork.run_commands (h : SameWork s₁ s₂) (events : List SessionEvent) :
    SameWork (s₁.run events) ((commands events).foldl Session.handle s₂) := by
  induction events generalizing s₁ s₂ with
  | nil => exact h
  | cons event events ih =>
    -- a command is handled on both sides, all else on the left alone
    cases event with
    | command command => exact ih (h.handle command)
    | answer answer => exact ih ((s₁.sameWork_answer answer).trans h)
    | tick => exact ih (s₁.sameWork_tick.trans h)

theorem sameWork_run (s : Session) {events₁ events₂ : List SessionEvent}
    (h : commands events₁ = commands events₂) : SameWork (s.run events₁) (s.run events₂) := by
  have h₁ := (SameWork.refl s).run_commands events₁
  have h₂ := (SameWork.refl s).run_commands events₂
  rw [h] at h₁
  exact h₁.trans h₂.symm

/-- **Ticks and answers do not interfere with the work.** Take two runs on the same editor with the
same commands, among ticks and answers that may differ in every way. Whenever both have handled
equally many commands, they agree on the formula, its text, the history, the number of commands and
what the last one did. The editors at the end are the same but for the text sent last and what came
back. The latter is in each run what the last answer says: the markup that it brings, or the words
of its fault. Without an answer it is what was there at the start. -/
theorem run_noninterference (e : Editor) {events₁ events₂ : List SessionEvent}
    (hcommands : commands events₁ = commands events₂) :
    (∀ before₁ before₂, before₁ <+: events₁ → before₂ <+: events₂ →
      (commands before₁).length = (commands before₂).length →
      let s₁ := (start e).run before₁
      let s₂ := (start e).run before₂
      s₁.editor.tree = s₂.editor.tree ∧ s₁.editor.history = s₂.editor.history ∧
        s₁.editor.formula.current = s₂.editor.formula.current ∧ s₁.handled = s₂.handled ∧
        s₁.lastOutcome = s₂.lastOutcome ∧ s₁.lastError = s₂.lastError) ∧
      (let e₁ := ((start e).run events₁).editor
      let e₂ := ((start e).run events₂).editor
      e₁ = e₂.repaint e₁.formula.rendered e₁.formula.code) ∧
      ∀ events,
        let code := ((start e).run events).editor.formula.code
        (answers events = [] → code = e.formula.code) ∧
          (∀ markup, (answers events).getLast? = some (.ok markup) → code = .markup markup) ∧
          ∀ fault, (answers events).getLast? = some (.error fault) →
            code = .error fault.message := by
  refine ⟨?_, ?_, ?_⟩
  · intro before₁ before₂ hbefore₁ hbefore₂ hlength s₁ s₂
    -- equally long beginnings of the same commands
    have hsame : commands before₁ = commands before₂ := by
      have hbegins₁ : commands before₁ <+: commands events₁ := hbefore₁.filterMap _
      have hbegins₂ : commands before₂ <+: commands events₁ := hcommands ▸ hbefore₂.filterMap _
      exact (List.prefix_of_prefix_length_le hbegins₁ hbegins₂ hlength.le).eq_of_length hlength
    have hwork : SameWork s₁ s₂ := (start e).sameWork_run hsame
    have htree : s₁.editor.bare.tree = s₂.editor.bare.tree := by rw [hwork.editor]
    have hhistory : s₁.editor.bare.history = s₂.editor.bare.history := by rw [hwork.editor]
    have hcurrent : s₁.editor.bare.formula.current = s₂.editor.bare.formula.current := by
      rw [hwork.editor]
    exact ⟨htree, hhistory, hcurrent, hwork.handled, hwork.lastOutcome, hwork.lastError⟩
  · exact Editor.eq_repaint_of_bare_eq ((start e).sameWork_run hcommands).editor
  · intro events code
    have hcode : code = ((answers events).getLast?.map Code.ofHighlighting).getD e.formula.code :=
      (congrArg (·.formula.code) ((start e).run_editor events)).trans (e.run_code events)
    refine ⟨fun hnone ↦ ?_, fun markup hlast ↦ ?_, fun fault hlast ↦ ?_⟩
    · rw [hcode, hnone]
      rfl
    · rw [hcode, hlast]
      rfl
    · rw [hcode, hlast]
      rfl

theorem run_noninterference_logic :
    let g := (Grammar.ofJson Editor.logic).2
    let e := Editor.ofTree g (.node (.plain (.operator "flag")) [.leaf (.ofAtom .bool "false")])
    let choose := .command (.choose "test")
    let select := .command (.edit ⟨[0], .selectVariant "1"⟩)
    let markup : Markup := ⟨[⟨some "n", "test"⟩, ⟨none, "(flag(false))"⟩]⟩
    let events₁ := [.tick, choose, .answer (.error (.transport "refused")), .tick, select, .tick]
    let events₂ := [choose, select, .answer (.error (.status 500)), .answer (.ok markup)]
    commands events₁ = commands events₂ ∧ events₁.take 3 <+: events₁ ∧ events₂.take 1 <+: events₂ ∧
      ((start e).run (events₁.take 3)).lastOutcome = ((start e).run (events₂.take 1)).lastOutcome ∧
      ((start e).run events₁).editor.formula.rendered = "test(flag(false))" ∧
      ((start e).run events₂).editor.formula.rendered = "" ∧
      ((start e).run events₁).editor =
        ((start e).run events₂).editor.repaint ((start e).run events₁).editor.formula.rendered
          ((start e).run events₁).editor.formula.code ∧
      ((start e).run (events₁.take 2)).editor.formula.code = .markup ⟨[]⟩ ∧
      ((start e).run events₁).editor.formula.code = .error "Transport error: refused" ∧
      ((start e).run events₂).editor.formula.code = .markup markup := by
  intro g e choose select markup events₁ events₂
  have hcommands : commands events₁ = commands events₂ := rfl
  have hbefore₁ : events₁.take 3 <+: events₁ := List.take_prefix 3 events₁
  have hbefore₂ : events₂.take 1 <+: events₂ := List.take_prefix 1 events₂
  have hmessage : (HighlightFault.transport "refused").message = "Transport error: refused" := by
    decide
  obtain ⟨hagree, hend, hcode⟩ := run_noninterference e hcommands
  obtain ⟨_, _, _, _, houtcome, _⟩ := hagree _ _ hbefore₁ hbefore₂ rfl
  have hfault := (hcode events₁).2.2 (.transport "refused") rfl
  rw [hmessage] at hfault
  exact ⟨hcommands, hbefore₁, hbefore₂, houtcome, by decide +kernel, by decide +kernel, hend,
    (hcode (events₁.take 2)).1 rfl, hfault, (hcode events₂).2.1 markup rfl⟩

end Session

end FormulaEdit
