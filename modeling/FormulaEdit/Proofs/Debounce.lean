import FormulaEdit.Proofs.Editor

/-!
# Texts and requests along a run

Three things are shown of a formula: its text, the text that was sent to be highlighted last, and
what came back. Each has one kind of call that moves it. The text moves with the formula, so with
commands; the text sent last moves with ticks; what came back moves with answers.

The text sent last starts out as the empty text, which stands for no request at all. It can do so
because no formula has an empty text: an operator is at its root, and the text has its brackets
(`render_ne_empty`). With this a tick sends a text exactly if it is not the one of the last request,
whether there was one or not, and the requests of a run are determined by its formulas at the ticks.
`Editor.Tracks last e` is the invariant that says so: `last` is the last request, if any.
-/

namespace FormulaEdit

theorem render_ne_empty {t : FormulaTree} {name : String} (h : t.value.kind = .operator name) :
    render t ≠ "" := by
  obtain ⟨node, children⟩ := t
  have hkind : node.kind = .operator name := h
  have htext : render (.node node children) =
      name ++ bracketed (spread? none children) 0 "(" ")"
        (renderAll none (innerLevel none 0 children) children) := by
    rw [render, renderAt.eq_def]
    simp only [hkind]
  rw [htext]
  simp [bracketed, spread?]

def SessionEvent.answers (events : List SessionEvent) : List Highlighting :=
  events.filterMap fun
    | .answer highlighting => some highlighting
    | _ => none

namespace Editor

open SessionEvent (answers)

/-! ## What each call moves -/

/-- The text that a call sends to be highlighted. Only ticks send one. -/
def sent? (e : Editor) : SessionEvent → Option String
  | .tick => e.tick.1
  | .command _ => none
  | .answer _ => none

def requests (e : Editor) : List SessionEvent → List String
  | [] => []
  | event :: events => (e.sent? event).toList ++ (e.after event).requests events

theorem tick_eq (e : Editor) :
    e.tick = if e.formula.current = e.formula.rendered then (none, e)
      else (some e.formula.current,
        { e with formula := { e.formula with rendered := e.formula.current } }) := by
  rw [tick, Formula.tick, Formula.isDirty]
  by_cases hsame : e.formula.current = e.formula.rendered
  · simp [hsame]
  · simp [hsame]

/-- A command moves neither the text sent last nor what came back. If it moves the formula, the text
goes with it. -/
theorem perform_formula {e e' : Editor} {command : SessionCommand} {outcome : Outcome}
    (h : Session.perform e command = .ok (outcome, e')) :
    e'.formula.rendered = e.formula.rendered ∧ e'.formula.code = e.formula.code ∧
      (e' = e ∨ e'.formula.current = render e'.tree) := by
  rcases Session.perform_cases h with ⟨_, rfl⟩ | ⟨_, hcases⟩
  · exact ⟨rfl, rfl, Or.inl rfl⟩
  · rcases hcases with ⟨_, _, _, rfl⟩ | ⟨_, _, _, rfl⟩ | ⟨_, _, _, _, rfl⟩ | ⟨_, _, _, _, rfl⟩
    · exact ⟨rfl, rfl, Or.inr rfl⟩
    · exact ⟨rfl, rfl, Or.inr rfl⟩
    · exact ⟨rfl, rfl, Or.inr rfl⟩
    · exact ⟨rfl, rfl, Or.inr rfl⟩

theorem after_rendered {event : SessionEvent} (h : event ≠ .tick) (e : Editor) :
    (e.after event).formula.rendered = e.formula.rendered := by
  cases event with
  | command command =>
    rw [after]
    split
    · next hperform => exact (perform_formula hperform).1
    · rfl
  | answer answer => rfl
  | tick => exact absurd rfl h

theorem after_code {event : SessionEvent} (h : ∀ answer, event ≠ .answer answer) (e : Editor) :
    (e.after event).formula.code = e.formula.code := by
  cases event with
  | command command =>
    rw [after]
    split
    · next hperform => exact (perform_formula hperform).2.1
    · rfl
  | answer answer => exact absurd rfl (h answer)
  | tick =>
    rw [after, tick_eq]
    split <;> rfl

theorem after_current (e : Editor) (h : e.formula.current = render e.tree) (event : SessionEvent) :
    (e.after event).formula.current = render (e.after event).tree := by
  cases event with
  | command command =>
    rw [after]
    split
    · next hperform =>
      rcases (perform_formula hperform).2.2 with rfl | hcurrent
      · exact h
      · exact hcurrent
    · exact h
  | answer answer => exact h
  | tick =>
    rw [after, tick_eq]
    split
    · exact h
    · exact h

theorem run_code (e : Editor) (events : List SessionEvent) :
    (e.run events).formula.code =
      ((answers events).getLast?.map Code.ofHighlighting).getD e.formula.code := by
  induction events generalizing e with
  | nil => rfl
  | cons event events ih =>
    rw [run, List.foldl_cons, ← run, ih]
    cases event with
    | answer answer =>
      have hanswers : answers (.answer answer :: events) = answer :: answers events := rfl
      rw [hanswers, List.getLast?_cons]
      cases (answers events).getLast? <;> rfl
    | command command =>
      rw [after_code (by simp)]
      rfl
    | tick =>
      rw [after_code (by simp)]
      rfl

/-! ## Requests -/

/-- The text is that of the formula, and the text sent last is that of the last request. -/
structure Tracks (g : Grammar) (last : Option String) (e : Editor) : Prop where
  /-- The formula is one of the grammar. -/
  sound : Sound g e
  /-- The text of the formula. -/
  current : e.formula.current = render e.tree
  /-- The text sent last, which is empty before the first request. -/
  rendered : e.formula.rendered = last.getD ""

variable {g : Grammar} {last : Option String} {e : Editor}

theorem Tracks.current_ne_empty (h : Tracks g last e) : e.formula.current ≠ "" := by
  obtain ⟨_, name, hname⟩ := h.sound.tree
  rw [h.current]
  exact render_ne_empty hname

/-- No request stands for the empty text, which no formula has. -/
theorem Tracks.current_eq_rendered_iff (h : Tracks g last e) :
    e.formula.current = e.formula.rendered ↔ last = some e.formula.current := by
  rw [h.rendered]
  cases last with
  | none => simpa using h.current_ne_empty
  | some text => simp [eq_comm]

/-- **A tick sends a text exactly if it is not the one of the last request.** -/
theorem Tracks.tick_fst (h : Tracks g last e) :
    e.tick.1 = if last = some e.formula.current then none else some e.formula.current := by
  rw [tick_eq]
  by_cases hsame : e.formula.current = e.formula.rendered
  · rw [if_pos hsame, if_pos (h.current_eq_rendered_iff.mp hsame)]
  · rw [if_neg hsame, if_neg (h.current_eq_rendered_iff.not.mp hsame)]

theorem Tracks.tick_fst_eq_some_iff (h : Tracks g last e) {text : String} :
    e.tick.1 = some text ↔ text = e.formula.current ∧ last ≠ some text := by
  rw [h.tick_fst]
  constructor
  · intro htext
    split at htext
    · cases htext
    · next hnew =>
      cases htext
      exact ⟨rfl, hnew⟩
  · rintro ⟨rfl, hnew⟩
    rw [if_neg hnew]

theorem Tracks.after (h : Tracks g last e) (event : SessionEvent) :
    Tracks g ((e.sent? event).or last) (e.after event) := by
  refine ⟨h.sound.after event, e.after_current h.current event, ?_⟩
  cases event with
  | command command => rw [after_rendered (by simp), h.rendered]; rfl
  | answer answer => exact h.rendered
  | tick =>
    rw [sent?, Editor.after, tick_eq]
    split
    · exact h.rendered
    · rfl

theorem Tracks.run (h : Tracks g last e) (events : List SessionEvent) :
    Tracks g ((e.requests events).getLast?.or last) (e.run events) := by
  induction events generalizing e last with
  | nil => exact h
  | cons event events ih =>
    have hlast : ((e.sent? event).toList ++ (e.after event).requests events).getLast?.or last =
        ((e.after event).requests events).getLast?.or ((e.sent? event).or last) := by
      rw [List.getLast?_append, Option.or_assoc]
      cases e.sent? event <;> rfl
    rw [requests, hlast]
    exact ih (h.after event)

theorem Tracks.isChain_requests (h : Tracks g last e) (events : List SessionEvent) :
    (last.toList ++ e.requests events).IsChain (· ≠ ·) := by
  induction events generalizing e last with
  | nil => cases last <;> simp [requests]
  | cons event events ih =>
    have hrest := ih (h.after event)
    rw [requests]
    cases hsent : e.sent? event with
    | none =>
      rw [hsent] at hrest
      exact hrest
    | some text =>
      -- only a tick sends, and what it sends is not the last request
      have hnew : last ≠ some text := by
        cases event with
        | command command => cases hsent
        | answer answer => cases hsent
        | tick => exact (h.tick_fst_eq_some_iff.mp hsent).2
      rw [hsent] at hrest
      cases last with
      | none => exact hrest
      | some previous => exact List.isChain_cons_cons.mpr ⟨fun heq ↦ hnew (heq ▸ rfl), hrest⟩

theorem requests_append (e : Editor) (events more : List SessionEvent) :
    e.requests (events ++ more) = e.requests events ++ (e.run events).requests more := by
  induction events generalizing e with
  | nil => rfl
  | cons event events ih =>
    rw [List.cons_append, requests, requests, ih, List.append_assoc]
    rfl

theorem requests_eq_nil {events : List SessionEvent} (h : .tick ∉ events) (e : Editor) :
    e.requests events = [] := by
  induction events generalizing e with
  | nil => rfl
  | cons event events ih =>
    obtain ⟨hevent, hevents⟩ := not_or.mp (List.mem_cons.not.mp h)
    have hsent : e.sent? event = none := by
      cases event with
      | command command => rfl
      | answer answer => rfl
      | tick => exact absurd rfl hevent
    rw [requests, hsent, ih hevents]
    rfl

theorem launch_tracks {name : Option String} (h : launch g name = .ok e) : Tracks g none e := by
  refine ⟨launch_sound h, ?_, ?_⟩
  · obtain ⟨_, t, _, rfl⟩ := launch_eq_ok h
    rfl
  · obtain ⟨_, t, _, rfl⟩ := launch_eq_ok h
    rfl

/-- **The text follows the formula, and requests follow the text.** After any calls on an editor
that started, the text is that of the formula. A tick sends it exactly if it is not the one of the
last request, and it is the text sent last from then on; nothing else moves the text sent last. So
calls without a tick, and then a tick, lead to one request at most, which is the text that they end
with, and to none if this is the text of the last request. No two requests in a row are the same.
What came back is what the last answer says, and nothing but an answer moves it. -/
theorem run_debounced {name : Option String} (hlaunch : launch g name = .ok e)
    (events : List SessionEvent) :
    let e' := e.run events
    let last := (e.requests events).getLast?
    e'.formula.current = render e'.tree ∧
      (∀ event, event ≠ .tick → (e'.after event).formula.rendered = e'.formula.rendered) ∧
      (∀ text, e'.tick.1 = some text ↔ text = e'.formula.current ∧ last ≠ some text) ∧
      (e'.tick.1 ≠ none → e'.tick.2.formula.rendered = e'.tick.2.formula.current) ∧
      (∀ quiet, .tick ∉ quiet →
        e.requests (events ++ quiet ++ [.tick]) = e.requests events ++
          if last = some (render (e'.run quiet).tree) then [] else [render (e'.run quiet).tree]) ∧
      (e.requests events).IsChain (· ≠ ·) ∧
      (∀ event, (∀ answer, event ≠ .answer answer) →
        (e'.after event).formula.code = e'.formula.code) ∧
      e'.formula.code =
        ((answers events).getLast?.map Code.ofHighlighting).getD e.formula.code := by
  intro e' last
  have hstart : Tracks g none e := launch_tracks hlaunch
  have htracks : Tracks g last e' := by simpa using hstart.run events
  refine ⟨htracks.current, fun event hevent ↦ after_rendered hevent e',
    fun text ↦ htracks.tick_fst_eq_some_iff, ?_, ?_, hstart.isChain_requests events,
    fun event hevent ↦ after_code hevent e', e.run_code events⟩
  · intro hsent
    rw [tick_eq] at hsent ⊢
    split at hsent
    · exact absurd rfl hsent
    · next hdirty => rw [if_neg hdirty]
  · intro quiet hquiet
    -- nothing is sent before the tick, so it is still compared with the same request
    have hbetween : Tracks g last (e'.run quiet) := by
      simpa [requests_eq_nil hquiet] using htracks.run quiet
    have htick : (e'.run quiet).requests [.tick] = (e'.run quiet).tick.1.toList :=
      List.append_nil _
    rw [requests_append, requests_append, requests_eq_nil hquiet, List.append_nil, run,
      List.foldl_append, ← run, ← run, htick, hbetween.tick_fst, hbetween.current]
    split <;> rfl

theorem run_debounced_logic :
    let g := (Grammar.ofJson logic).2
    let e := ofTree g (.node (.plain (.operator "flag")) [.leaf (.ofAtom .bool "false")])
    let events := [.tick, .command (.choose "test"), .command (.edit ⟨[0], .selectVariant "1"⟩),
      .answer (.ok .empty), .tick]
    let quiet := [.command .undo, .command .redo]
    launch g none = .ok e ∧ .tick ∉ quiet ∧ .tick ∉ quiet.take 1 ∧
      e.requests events = ["flag(false)", "test(flag(false))"] ∧
      e.requests (events ++ quiet ++ [.tick]) = e.requests events ∧
      e.requests (events ++ quiet.take 1 ++ [.tick]) = e.requests events ++ ["test(false)"] := by
  intro g e events quiet
  have hlaunch : launch g none = .ok e := by decide +kernel
  have hquiet : .tick ∉ quiet := by simp [quiet]
  have hundo : .tick ∉ quiet.take 1 := by simp [quiet]
  obtain ⟨_, _, _, _, hsent, _⟩ := run_debounced hlaunch events
  refine ⟨hlaunch, hquiet, hundo, by decide +kernel, ?_, ?_⟩
  · rw [hsent quiet hquiet]
    decide +kernel
  · rw [hsent (quiet.take 1) hundo]
    decide +kernel

end Editor

end FormulaEdit
