import FormulaEdit.Editor.View

/-!
# Sessions

A session runs an editor on events that come one at a time: commands of the user, ticks and answers
of the highlighter. After an event that may change what is seen, it publishes a snapshot in place of
the one before. Answers are taken in the order they come in, so a late one may replace a newer one.
-/

namespace FormulaEdit

/-- What a user asks of a session. -/
inductive SessionCommand where
  | edit (event : EditEvent)
  | choose (name : String)
  | undo
  | redo
  deriving DecidableEq, Repr

/-- What a session shows to the outside. -/
structure SessionSnapshot where
  /-- The number of commands handled so far. -/
  handled : Nat
  /-- What is shown of the formula. -/
  formula : Formula
  /-- What is seen of its nodes. -/
  outline : List NodeView
  /-- What the last command did, unless it failed. -/
  lastOutcome : Option Outcome
  /-- Why the last command failed, if it did. -/
  lastError : Option String
  deriving DecidableEq, Repr

/-- An editor that is driven by events. -/
structure Session where
  /-- The editor. -/
  editor : Editor
  /-- The number of commands handled so far. -/
  handled : Nat
  /-- What the last command did, unless it failed. -/
  lastOutcome : Option Outcome
  /-- Why the last command failed, if it did. -/
  lastError : Option String
  /-- The snapshot that was published last. -/
  latest : SessionSnapshot
  deriving DecidableEq, Repr

/-- What a session reacts to. -/
inductive SessionEvent where
  | command (command : SessionCommand)
  | answer (answer : Highlighting)
  | tick

namespace Session

/-- What a session shows to the outside now. -/
def snapshot (s : Session) : SessionSnapshot where
  handled := s.handled
  formula := s.editor.formula
  outline := s.editor.outline
  lastOutcome := s.lastOutcome
  lastError := s.lastError

/-- Replace the published snapshot. -/
def publish (s : Session) : Session := { s with latest := s.snapshot }

/-- A session on an editor. -/
def start (editor : Editor) : Session where
  editor
  handled := 0
  lastOutcome := none
  lastError := none
  latest := ⟨0, editor.formula, editor.outline, none, none⟩

/-- What going back or forward did. -/
def historyOutcome (done : Bool) (action : String) : Outcome :=
  ⟨done, [], if done then none else some (.emptyHistory action)⟩

/-- Run a command on an editor. -/
def perform (e : Editor) : SessionCommand → Except EditorError (Outcome × Editor)
  | .edit event => e.apply event
  | .choose name => e.chooseOperator name
  | .undo => .ok (historyOutcome e.undo?.isSome "undo", e.undo?.getD e)
  | .redo => .ok (historyOutcome e.redo?.isSome "redo", e.redo?.getD e)

/-- Handle a command. -/
def handle (s : Session) (command : SessionCommand) : Session :=
  match perform s.editor command with
  | .ok (outcome, editor) =>
    publish
      { s with
        editor
        handled := s.handled + 1
        lastOutcome := some outcome
        lastError := none }
  | .error error =>
    publish
      { s with
        handled := s.handled + 1
        lastOutcome := none
        lastError := some error.message }

/-- Take an answer of the highlighter. -/
def answer (s : Session) (answer : Highlighting) : Session :=
  publish { s with editor := s.editor.highlight answer }

/-- Handle a tick: the text to send, if any, and the session after that. Nothing is published if
there is nothing to send. -/
def tick (s : Session) : Option String × Session :=
  match s.editor.tick with
  | (some text, editor) => (some text, publish { s with editor })
  | (none, editor) => (none, { s with editor })

/-- Handle an event. -/
def step (s : Session) : SessionEvent → Session
  | .command command => s.handle command
  | .answer answer => s.answer answer
  | .tick => s.tick.2

end Session

end FormulaEdit
