import FormulaEdit.Command.Edit
import FormulaEdit.Proofs.Interference
import Mathlib.Logic.Relation

/-!
# Commands and the snapshots that answer them

A client puts a command into a queue and then waits until the latest snapshot of the session counts
as many commands as the client has sent. Meanwhile the session takes what is in the queue, among
ticks and answers, any of which may put another snapshot in place of the latest. An `Exchange` is
the two side by side, and its steps come in any order. A command is in the queue before the client
counts it, so the session may be done with it by then.

## The invariant

Two facts carry the argument. The latest snapshot is always that of the present session, because a
tick that publishes nothing changes nothing (`Session.step_latest`). And the session has done the
work of the commands that have left the queue, whatever ticks and answers there were in between,
which is said by `Session.SameWork`. The snapshots that were read are then snapshots of sessions
with the work of all commands up to the one they answer.

That the right one is read is a matter of counting. The commands that have left the queue are those
that the session counts. When they are as many as were sent, the queue is empty and the last of them
is the one that the client waits for.
-/

namespace FormulaEdit

/-! ## What a session publishes -/

namespace Session

theorem step_latest {s : Session} (h : s.latest = s.snapshot) (event : SessionEvent) :
    (s.step event).latest = (s.step event).snapshot := by
  cases event with
  | command command =>
    rw [step, handle]
    cases perform s.editor command with
    | ok result => rfl
    | error error => rfl
  | answer answer => rfl
  | tick =>
    rw [step, tick, Editor.tick_eq]
    by_cases hsame : s.editor.formula.current = s.editor.formula.rendered
    · -- nothing is published, and the editor is the same as before
      rw [if_pos hsame]
      exact h
    · rw [if_neg hsame]
      rfl

theorem foldl_handle_latest {s : Session} (h : s.latest = s.snapshot)
    (commands : List SessionCommand) :
    (commands.foldl handle s).latest = (commands.foldl handle s).snapshot := by
  induction commands generalizing s with
  | nil => exact h
  | cons command commands ih => exact ih (step_latest h (.command command))

theorem foldl_handle_editor (s : Session) (commands : List SessionCommand) :
    (commands.foldl handle s).editor = s.editor.run (commands.map .command) := by
  rw [← run_editor, run, List.foldl_map]
  rfl

theorem foldl_handle_handled (s : Session) (commands : List SessionCommand) :
    (commands.foldl handle s).handled = s.handled + commands.length := by
  induction commands generalizing s with
  | nil => rfl
  | cons command commands ih =>
    have hone : (s.handle command).handled = s.handled + 1 := by
      rw [handle]
      split <;> rfl
    rw [List.foldl_cons, ih, hone, List.length_cons, Nat.add_right_comm, Nat.add_assoc]

end Session

/-- A snapshot tells what a command did, or why it failed. -/
def SessionSnapshot.Tells (snapshot : SessionSnapshot) :
    Except EditorError (Outcome × Editor) → Prop
  | .ok (outcome, _) => snapshot.lastOutcome = some outcome ∧ snapshot.lastError = none
  | .error error => snapshot.lastOutcome = none ∧ snapshot.lastError = some error.message

def Editor.obey (e : Editor) (commands : List SessionCommand) : Editor :=
  e.run (commands.map .command)

namespace Session.SameWork

variable {s s' : Session} {e : Editor}

theorem current (h : SameWork s s') :
    s.editor.formula.current = s'.editor.formula.current := by
  have hbare : s.editor.bare.formula.current = s'.editor.bare.formula.current := by rw [h.editor]
  exact hbare

/-- **What a session shows once it has done the work of some commands**: their number, what the last
of them did, and the text after it. -/
theorem snapshot_of_commands {commands : List SessionCommand} {command : SessionCommand}
    (h : SameWork s ((commands ++ [command]).foldl Session.handle (start e))) :
    s.snapshot.handled = commands.length + 1 ∧
      s.snapshot.Tells (perform (e.obey commands) command) ∧
      s.snapshot.formula.current = (e.obey (commands ++ [command])).text := by
  have hhandled := h.handled
  rw [foldl_handle_handled, List.length_append, List.length_singleton] at hhandled
  have htext := h.current
  rw [foldl_handle_editor] at htext
  have hlast : (commands.foldl Session.handle (start e)).editor = e.obey commands :=
    foldl_handle_editor (start e) commands
  refine ⟨by rw [snapshot, hhandled, start, Nat.zero_add], ?_, htext⟩
  have houtcome := h.lastOutcome
  have herror := h.lastError
  rw [List.foldl_append, List.foldl_cons, List.foldl_nil, Session.handle, hlast] at houtcome herror
  cases hperform : perform (e.obey commands) command with
  | ok result =>
    rw [hperform] at houtcome herror
    exact ⟨houtcome, herror⟩
  | error error =>
    rw [hperform] at houtcome herror
    exact ⟨houtcome, herror⟩

theorem report (h : SameWork s s') (colour : Bool) :
    Client.report colour s.snapshot = Client.report colour s'.snapshot := by
  have houtcome : s.snapshot.lastOutcome = s'.snapshot.lastOutcome := h.lastOutcome
  have herror : s.snapshot.lastError = s'.snapshot.lastError := h.lastError
  have hcurrent : s.snapshot.formula.current = s'.snapshot.formula.current := h.current
  rw [Client.report, Client.report, houtcome, herror, hcurrent]

end Session.SameWork

/-! ## A client and its session -/

theorem Client.foldl_send_session (client : Client) (commands : List SessionCommand) :
    (commands.foldl send client).session = commands.foldl Session.handle client.session := by
  induction commands generalizing client with
  | nil => rfl
  | cons command commands ih => exact ih (client.send command)

/-- How far a client is with a command. -/
inductive Client.Phase where
  /-- There is none. -/
  | idle
  /-- It is sent and not yet counted. -/
  | queued
  /-- It is counted, and its snapshot is awaited. -/
  | waiting
  deriving DecidableEq

namespace Client.Phase

def uncounted : Phase → Nat
  | .idle | .waiting => 0
  | .queued => 1

def unread : Phase → Nat
  | .idle => 0
  | .queued | .waiting => 1

end Client.Phase

/-- A client and its session side by side. The last two fields record what happened. No step looks
at them. -/
structure Exchange extends Client where
  /-- How far the client is. -/
  phase : Client.Phase
  /-- The commands that the session has not yet taken, the oldest first. -/
  queue : List SessionCommand
  /-- The commands that were sent, the oldest first. -/
  issued : List SessionCommand
  /-- The snapshots that were read for them, the oldest first. -/
  reads : List SessionSnapshot

namespace Exchange

open Session (SameWork)

def start (e : Editor) : Exchange := ⟨.start e, .idle, [], [], []⟩

/-- A step of the client or of the session. -/
inductive Step : Exchange → Exchange → Prop
  /-- The client puts a command into the queue. -/
  | send {x : Exchange} (command : SessionCommand) (idle : x.phase = .idle) :
      Step x { x with
        phase := .queued
        queue := x.queue ++ [command]
        issued := x.issued ++ [command] }
  /-- The client counts the command. -/
  | count {x : Exchange} (queued : x.phase = .queued) :
      Step x { x with phase := .waiting, sent := x.sent + 1 }
  /-- The client reads the latest snapshot, once it counts what the client counts. -/
  | read {x : Exchange} (waiting : x.phase = .waiting)
      (handled : x.sent ≤ x.session.latest.handled) :
      Step x { x with phase := .idle, reads := x.reads ++ [x.session.latest] }
  /-- The session takes the first command of the queue. -/
  | take {x : Exchange} {command : SessionCommand} {rest : List SessionCommand}
      (first : x.queue = command :: rest) :
      Step x { x with session := x.session.step (.command command), queue := rest }
  /-- The session takes an answer of the highlighter. -/
  | answer {x : Exchange} (highlighting : Highlighting) :
      Step x { x with session := x.session.step (.answer highlighting) }
  /-- The session takes a tick. -/
  | tick {x : Exchange} : Step x { x with session := x.session.step .tick }

/-- What holds of an exchange at any time. -/
structure Inv (e : Editor) (x : Exchange) : Prop where
  /-- The latest snapshot is the one of the session. -/
  latest : x.session.latest = x.session.snapshot
  /-- The session has done the work of the commands that have left the queue. -/
  work : ∃ taken, x.issued = taken ++ x.queue ∧
    SameWork x.session (taken.foldl Session.handle (.start e))
  /-- The client counts what it sends. -/
  sent : x.sent + x.phase.uncounted = x.issued.length
  /-- The client reads one snapshot for each command. -/
  unread : x.reads.length + x.phase.unread = x.issued.length
  /-- What was read for a command is a snapshot with the work of the commands up to it. -/
  reads : ∀ n snapshot, x.reads[n]? = some snapshot →
    ∃ s, SameWork s ((x.issued.take (n + 1)).foldl Session.handle (.start e)) ∧
      snapshot = s.snapshot

variable {e : Editor} {x y : Exchange}

theorem inv_start (e : Editor) : Inv e (start e) :=
  ⟨rfl, ⟨[], rfl, .refl _⟩, rfl, rfl, fun n snapshot h ↦ by simp [start] at h⟩

theorem Inv.handled (h : Inv e x) : x.session.handled + x.queue.length = x.issued.length := by
  obtain ⟨taken, hissued, hwork⟩ := h.work
  rw [hwork.handled, Session.foldl_handle_handled, hissued, List.length_append, Session.start,
    Nat.zero_add]

/-- A client that waits may read as soon as the queue is empty, and not before. -/
theorem Inv.read_iff (h : Inv e x) (hwaiting : x.phase = .waiting) :
    x.sent ≤ x.session.latest.handled ↔ x.queue = [] := by
  have hsent := h.sent
  have hhandled := h.handled
  have hlatest : x.session.latest.handled = x.session.handled := by
    rw [h.latest]
    rfl
  rw [hwaiting, Client.Phase.uncounted] at hsent
  rw [hlatest, ← List.length_eq_zero_iff]
  omega

theorem Inv.session (h : Inv e x) (event : SessionEvent)
    (hwork : SameWork (x.session.step event) x.session) :
    Inv e { x with session := x.session.step event } := by
  obtain ⟨taken, hissued, hdone⟩ := h.work
  exact ⟨Session.step_latest h.latest event, ⟨taken, hissued, hwork.trans hdone⟩, h.sent, h.unread,
    h.reads⟩

/-- **Every step keeps the invariant.** -/
theorem Inv.step (h : Inv e x) (hstep : Step x y) : Inv e y := by
  obtain ⟨taken, hissued, hwork⟩ := h.work
  have hsent := h.sent
  have hunread := h.unread
  cases hstep with
  | send command idle =>
    rw [idle] at hsent hunread
    refine ⟨h.latest, ⟨taken, by rw [hissued, List.append_assoc], hwork⟩, ?_, ?_, ?_⟩
    · rw [List.length_append, ← hsent]
      rfl
    · rw [List.length_append, ← hunread]
      rfl
    · intro n snapshot hn
      have hlt : n + 1 ≤ x.issued.length := by
        rw [← hunread]
        exact (List.getElem?_eq_some_iff.mp hn).1
      rw [List.take_append_of_le_length hlt]
      exact h.reads n snapshot hn
  | count queued =>
    rw [queued] at hsent hunread
    exact ⟨h.latest, h.work, hsent, hunread, h.reads⟩
  | read waiting handled =>
    have hempty := (h.read_iff waiting).mp handled
    rw [hempty, List.append_nil] at hissued
    rw [waiting] at hsent hunread
    refine ⟨h.latest, h.work, hsent, by rw [List.length_append]; exact hunread, ?_⟩
    intro n snapshot hn
    rcases Nat.lt_or_ge n x.reads.length with hlt | hge
    · rw [List.getElem?_append_left hlt] at hn
      exact h.reads n snapshot hn
    · -- the new snapshot belongs to the last command, and all commands have left the queue
      rw [List.getElem?_append_right hge] at hn
      have hnew : snapshot = x.session.latest := by
        simpa using List.mem_of_getElem? hn
      have hall : x.issued.length ≤ n + 1 := by
        rw [← hunread]
        exact Nat.succ_le_succ hge
      rw [List.take_of_length_le hall, hissued]
      exact ⟨x.session, hwork, hnew.trans h.latest⟩
  | @take command rest first =>
    refine ⟨Session.step_latest h.latest _, ⟨taken ++ [command], ?_, ?_⟩, hsent, hunread, h.reads⟩
    · rw [hissued, first, List.append_assoc, List.singleton_append]
    · rw [List.foldl_append]
      exact hwork.handle command
  | answer highlighting => exact h.session _ (x.session.sameWork_answer highlighting)
  | tick => exact h.session _ x.session.sameWork_tick

theorem Inv.steps (hsteps : Relation.ReflTransGen Step (start e) x) : Inv e x := by
  induction hsteps with
  | refl => exact inv_start e
  | tail _ hstep ih => exact ih.step hstep

/-- The line that is printed for a command is the one that is printed when every command is handled
at once. -/
theorem report_read (hsteps : Relation.ReflTransGen Step (start e) x) {n : Nat}
    {snapshot : SessionSnapshot} (hread : x.reads[n]? = some snapshot) (colour : Bool) :
    Client.report colour snapshot = Client.report colour
      ((x.issued.take (n + 1)).foldl Client.send (.start e)).session.latest := by
  obtain ⟨s, hwork, rfl⟩ := (Inv.steps hsteps).reads n snapshot hread
  rw [Client.foldl_send_session, Client.start, Session.foldl_handle_latest rfl]
  exact hwork.report colour

/-- **Each snapshot answers its command.** Whatever the steps were, the latest snapshot is that of
the present session. A client that waits may read it once the session has taken all commands, and
reads one for each command. The one for a command counts the commands up to it, tells what this
command did after the ones before it, and shows the text after it. -/
theorem reads_answer_issued (hsteps : Relation.ReflTransGen Step (start e) x) :
    x.session.latest = x.session.snapshot ∧
      (x.phase = .waiting → (x.sent ≤ x.session.latest.handled ↔ x.queue = [])) ∧
      x.reads.length + x.phase.unread = x.issued.length ∧
      ∀ n snapshot, x.reads[n]? = some snapshot → ∃ command, x.issued[n]? = some command ∧
        snapshot.handled = n + 1 ∧
        snapshot.Tells (Session.perform (e.obey (x.issued.take n)) command) ∧
        snapshot.formula.current = (e.obey (x.issued.take (n + 1))).text := by
  have hinv := Inv.steps hsteps
  refine ⟨hinv.latest, hinv.read_iff, hinv.unread, fun n snapshot hread ↦ ?_⟩
  obtain ⟨s, hwork, rfl⟩ := hinv.reads n snapshot hread
  have hlt : n < x.issued.length := by
    have hread_lt := (List.getElem?_eq_some_iff.mp hread).1
    have hunread := hinv.unread
    omega
  have htake : x.issued.take (n + 1) = x.issued.take n ++ [x.issued.get ⟨n, hlt⟩] := by
    simp
  rw [htake] at hwork ⊢
  obtain ⟨hhandled, htells, htext⟩ := hwork.snapshot_of_commands
  rw [List.length_take_of_le hlt.le] at hhandled
  exact ⟨_, List.getElem?_eq_getElem hlt, hhandled, htells, htext⟩

/-- Two commands, the first of which is handled before it is counted, the second one after it. -/
theorem exists_steps_two (e : Editor) (command other : SessionCommand)
    (highlighting : Highlighting) :
    let s := (((Session.start e).step .tick).step (.command command)).step (.answer highlighting)
    let s' := ((s.step .tick).step (.command other)).step .tick
    ∃ x, Relation.ReflTransGen Step (start e) x ∧ x.issued = [command, other] ∧
      x.reads = [s.latest, s'.latest] := by
  intro s s'
  have hcounted : Relation.ReflTransGen Step (start e)
      ⟨⟨s, 1⟩, .waiting, [], [command], []⟩ :=
    .head .tick <| .head (.send command rfl) <| .head (.take rfl) <|
      .head (.answer highlighting) <| .head (.count rfl) .refl
  have hread := hcounted.tail (.read rfl (((Inv.steps hcounted).read_iff rfl).mpr rfl))
  have hcounted' : Relation.ReflTransGen Step (start e)
      ⟨⟨s', 2⟩, .waiting, [], [command, other], [s.latest]⟩ :=
    hread.trans <| .head (.send other rfl) <| .head (.count rfl) <| .head .tick <|
      .head (.take rfl) <| .head .tick .refl
  exact ⟨_, hcounted'.tail (.read rfl (((Inv.steps hcounted').read_iff rfl).mpr rfl)), rfl, rfl⟩

theorem reads_answer_issued_logic :
    let g := (Grammar.ofJson Editor.logic).2
    let e := Editor.ofTree g (.node (.plain (.operator "flag")) [.leaf (.ofAtom .bool "false")])
    let choose := SessionCommand.choose "test"
    let stray := SessionCommand.edit ⟨[7], .toggleOpen⟩
    ∃ x, Relation.ReflTransGen Step (start e) x ∧ x.issued = [choose, stray] ∧
      x.reads.map (·.lastError) = [none, some "No node at path '7'"] ∧
      x.session.latest = x.session.snapshot ∧ ∀ snapshot, x.reads[1]? = some snapshot →
        snapshot.handled = 2 ∧ snapshot.formula.current = (e.obey [choose, stray]).text := by
  intro g e choose stray
  -- the first command is handled before it is counted, the second one after it
  obtain ⟨x, hsteps, hissued, hreads⟩ := exists_steps_two e choose stray (.error (.status 500))
  obtain ⟨hlatest, _, _, hanswers⟩ := reads_answer_issued hsteps
  refine ⟨x, hsteps, hissued, ?_, hlatest, fun snapshot hread ↦ ?_⟩
  · rw [hreads]
    decide +kernel
  · obtain ⟨_, _, hhandled, _, htext⟩ := hanswers 1 snapshot hread
    rw [hissued] at htext
    exact ⟨hhandled, htext⟩

end Exchange

end FormulaEdit
