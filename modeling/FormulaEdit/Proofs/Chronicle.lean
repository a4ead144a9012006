import FormulaEdit.Proofs.Editor

/-!
# The history as a line of states

A history is held as two lists that states wander between. What a user has in mind is one line of
states with an edit on each step and a place on it. Going back and forward moves the place; an edit
cuts the line off after the place and adds a state at its end. A bound on the history does not
shorten the line. It raises a floor below which the place cannot go back.

Such a line is a `Chronicle`. It determines the two lists (`Chronicle.history`): behind are the
states from the floor up to the place, with the edits that left them, and ahead are those after the
place, with the edits that lead to them. Each action of a history is one of the line (`shown_act?`),
and so is every run. What can be observed of a history is then read off the line.

A history that has one state too many drops its oldest one. This raises the floor to where it has to
be only if there was no more than one too many, which is what `Chronicle.Within` says and what every
action keeps.
-/

namespace FormulaEdit

variable {σ : Type}

/-! ## Lines of states -/

/-- A line of states, the edits between them, and a place on it. -/
structure Chronicle (σ : Type) where
  /-- The state before all edits. -/
  first : σ
  /-- The edits in order, each with the state it leads to. -/
  steps : List (Snapshot σ)
  /-- How many edits are behind. -/
  place : Nat
  /-- The earliest place to go back to. -/
  floor : Nat
  floor_le : floor ≤ place
  place_le : place ≤ steps.length

/-- What is done to a state with a history. -/
inductive History.Action (σ : Type) where
  /-- Go over to a new state. -/
  | edit (state : σ) (description : String)
  /-- Go back. -/
  | undo
  /-- Go forward again. -/
  | redo

namespace Chronicle

def states (c : Chronicle σ) : List σ := c.first :: c.steps.map Snapshot.state

/-- The edits in order. The one at a position leads from the state there to the next one. -/
def edits (c : Chronicle σ) : List String := c.steps.map Snapshot.description

theorem length_states (c : Chronicle σ) : c.states.length = c.steps.length + 1 := by
  rw [states, List.length_cons, List.length_map]

theorem length_edits (c : Chronicle σ) : c.edits.length = c.steps.length := by
  rw [edits, List.length_map]

theorem place_lt (c : Chronicle σ) : c.place < c.states.length := by
  rw [length_states]
  exact Nat.lt_succ_of_le c.place_le

def present (c : Chronicle σ) : σ := c.states.get ⟨c.place, c.place_lt⟩

def start (first : σ) : Chronicle σ := ⟨first, [], 0, 0, le_rfl, le_rfl⟩

/-- Cut the line off after the place and go over to a new state at its end. With a limit, no more
than so many edits can be taken back. -/
def edit (c : Chronicle σ) (limit : Nat) (state : σ) (description : String) : Chronicle σ where
  first := c.first
  steps := c.steps.take c.place ++ [⟨state, description⟩]
  place := c.place + 1
  floor := if limit = 0 then c.floor else max c.floor (c.place + 1 - limit)
  floor_le := by
    have := c.floor_le
    split <;> omega
  place_le := by simp [c.place_le]

def back? (c : Chronicle σ) : Option (Chronicle σ) :=
  if h : c.floor < c.place then
    some
      { c with
        place := c.place - 1
        floor_le := Nat.le_sub_one_of_lt h
        place_le := (Nat.sub_le _ _).trans c.place_le }
  else none

def forth? (c : Chronicle σ) : Option (Chronicle σ) :=
  if h : c.place < c.steps.length then
    some { c with place := c.place + 1, floor_le := Nat.le_succ_of_le c.floor_le, place_le := h }
  else none

/-- The line after an action, if it can be done. -/
def act? (c : Chronicle σ) (limit : Nat) : History.Action σ → Option (Chronicle σ)
  | .edit state description => some (c.edit limit state description)
  | .undo => c.back?
  | .redo => c.forth?

/-- The line after several actions. What cannot be done is left out. -/
def run (c : Chronicle σ) (limit : Nat) (actions : List (History.Action σ)) : Chronicle σ :=
  actions.foldl (fun c action ↦ (c.act? limit action).getD c) c

end Chronicle

namespace History

/-- What an action makes of a state and its history, if it can be done: an edit notes the state it
replaces, and going back or forward exchanges the state for another one. -/
def act? (h : History σ) (current : σ) : Action σ → Option (σ × History σ)
  | .edit state description => some (state, h.record current description)
  | .undo => h.undo? current
  | .redo => h.redo? current

/-- A state and its history after several actions. What cannot be done is left out. -/
def run (d : σ × History σ) (actions : List (Action σ)) : σ × History σ :=
  actions.foldl (fun d action ↦ (d.2.act? d.1 action).getD d) d

end History

/-! ## The two lists of a line -/

namespace Chronicle

/-- The states but the last, each with the edit that leaves it behind. -/
def left (c : Chronicle σ) : List (Snapshot σ) := List.zipWith Snapshot.mk c.states c.edits

/-- The history that a line amounts to. -/
def history (c : Chronicle σ) (limit : Nat) : History σ where
  past := ((c.left.take c.place).drop c.floor).reverse
  future := c.steps.drop c.place
  limit

def shown (c : Chronicle σ) (limit : Nat) : σ × History σ := (c.present, c.history limit)

theorem length_left (c : Chronicle σ) : c.left.length = c.steps.length := by
  rw [left, List.length_zipWith, length_states, length_edits]
  omega

theorem present_eq (c : Chronicle σ) : c.states[c.place]? = some c.present :=
  List.getElem?_eq_getElem c.place_lt

theorem left_getElem? (c : Chronicle σ) {index : Nat} {state : σ} {description : String}
    (hstate : c.states[index]? = some state) (hedit : c.edits[index]? = some description) :
    c.left[index]? = some ⟨state, description⟩ := by
  rw [left, List.getElem?_zipWith, hstate, hedit]

theorem length_past (c : Chronicle σ) (limit : Nat) :
    (c.history limit).past.length = c.place - c.floor := by
  rw [history, List.length_reverse, List.length_drop, List.length_take, length_left,
    Nat.min_eq_left c.place_le]

theorem length_future (c : Chronicle σ) (limit : Nat) :
    (c.history limit).future.length = c.steps.length - c.place := List.length_drop

/-- Edits past the floor are within a limit. -/
def Within (limit : Nat) (c : Chronicle σ) : Prop := 0 < limit → c.steps.length - c.floor ≤ limit

theorem within_start (limit : Nat) (first : σ) : (start first).Within limit :=
  fun _ ↦ Nat.zero_le _

theorem Within.past_le {c : Chronicle σ} {limit : Nat} (h : c.Within limit) (hlimit : 0 < limit) :
    (c.history limit).past.length ≤ limit := by
  rw [length_past]
  exact (Nat.sub_le_sub_right c.place_le _).trans (h hlimit)

end Chronicle

/-- To drop the oldest state when there is one too many is to keep as many as the limit says,
provided that there were not more before. -/
theorem History.past_record {h : History σ} (hpast : 0 < h.limit → h.past.length ≤ h.limit)
    (previous : σ) (description : String) :
    (h.record previous description).past =
      if h.limit = 0 then ⟨previous, description⟩ :: h.past
      else (⟨previous, description⟩ :: h.past).take h.limit := by
  simp only [record, List.length_cons]
  by_cases hlimit : h.limit = 0
  · rw [if_pos hlimit, if_neg (by omega)]
  · have hle := hpast (by omega)
    rw [if_neg hlimit]
    by_cases hfull : h.limit = h.past.length
    · rw [if_pos (by omega), List.dropLast_eq_take, List.length_cons, hfull, Nat.add_sub_cancel]
    · rw [if_neg (by omega), List.take_of_length_le]
      rw [List.length_cons]
      omega

theorem reverse_drop_take_succ {α : Type} {l : List α} {low high : Nat} {x : α}
    (hx : l[high]? = some x) (hlow : low ≤ high) :
    ((l.take (high + 1)).drop low).reverse = x :: ((l.take high).drop low).reverse := by
  have hlength : high < l.length := (List.getElem?_eq_some_iff.mp hx).1
  rw [List.take_add_one, hx, Option.toList_some, List.drop_append_of_le_length, List.reverse_append,
    List.reverse_singleton, List.singleton_append]
  rw [List.length_take]
  omega

theorem take_reverse_drop {α : Type} (l : List α) (low limit : Nat) :
    (l.drop low).reverse.take limit = (l.drop (max low (l.length - limit))).reverse := by
  rw [List.take_reverse, List.length_drop, List.drop_drop]
  congr 2
  omega

namespace Chronicle

/-! ### Edits -/

theorem states_edit (c : Chronicle σ) (limit : Nat) (state : σ) (description : String) :
    (c.edit limit state description).states = c.states.take (c.place + 1) ++ [state] := by
  simp [states, edit, List.map_take]

theorem edits_edit (c : Chronicle σ) (limit : Nat) (state : σ) (description : String) :
    (c.edit limit state description).edits = c.edits.take c.place ++ [description] := by
  simp [edits, edit, List.map_take]

theorem present_edit (c : Chronicle σ) (limit : Nat) (state : σ) (description : String) :
    (c.edit limit state description).present = state := by
  have hlength : (c.states.take (c.place + 1)).length = c.place + 1 := by
    rw [List.length_take, Nat.min_eq_left c.place_lt]
  have hstate : (c.edit limit state description).states[c.place + 1]? = some state := by
    rw [states_edit, List.getElem?_append_right (by omega), hlength, Nat.sub_self]
    rfl
  have hpresent : (c.edit limit state description).states[c.place + 1]? =
      some (c.edit limit state description).present := present_eq _
  rw [hstate] at hpresent
  exact (Option.some.inj hpresent).symm

theorem left_take_edit (c : Chronicle σ) (limit : Nat) (state : σ) (description : String) :
    (c.edit limit state description).left.take c.place = c.left.take c.place ∧
      (c.edit limit state description).left[c.place]? = some ⟨c.present, description⟩ := by
  have hplace := c.place_lt
  have hedits : (c.edits.take c.place).length = c.place := by
    rw [List.length_take, length_edits, Nat.min_eq_left c.place_le]
  constructor
  · rw [left, left, List.take_zipWith, List.take_zipWith, states_edit, edits_edit,
      List.take_append_of_le_length, List.take_take, List.take_append_of_le_length, List.take_take,
      Nat.min_eq_left (Nat.le_succ _), Nat.min_self]
    · exact hedits.ge
    · rw [List.length_take]
      omega
  · apply left_getElem?
    · rw [states_edit, List.getElem?_append_left, List.getElem?_take_of_succ, present_eq]
      rw [List.length_take]
      omega
    · rw [edits_edit, List.getElem?_append_right hedits.le, hedits, Nat.sub_self]
      rfl

theorem history_edit {c : Chronicle σ} {limit : Nat} (h : c.Within limit) (state : σ)
    (description : String) :
    (c.edit limit state description).history limit =
      (c.history limit).record c.present description := by
  obtain ⟨htake, hlast⟩ := c.left_take_edit limit state description
  obtain ⟨behind, hbehind⟩ :
      ∃ behind, behind = (c.edit limit state description).left.take (c.place + 1) := ⟨_, rfl⟩
  have hlength : behind.length = c.place + 1 := by
    rw [hbehind, List.length_take, length_left]
    simp [edit, c.place_le]
  have hhistory : (c.edit limit state description).history limit =
      ⟨(behind.drop (c.edit limit state description).floor).reverse, [], limit⟩ := by
    have hfuture : (c.edit limit state description).steps.drop (c.place + 1) = [] := by
      simp [edit, c.place_le]
    rw [hbehind, ← hfuture]
    rfl
  -- all that was left behind since the old floor, before the limit is looked at
  have hpast : (behind.drop c.floor).reverse =
      ⟨c.present, description⟩ :: (c.history limit).past := by
    rw [hbehind, reverse_drop_take_succ hlast c.floor_le, htake]
    rfl
  have hrecord : ((c.history limit).record c.present description).past =
      (behind.drop (c.edit limit state description).floor).reverse := by
    rw [History.past_record h.past_le, ← hpast]
    change (if limit = 0 then _ else _) = _
    by_cases hlimit : limit = 0
    · have hfloor : (c.edit limit state description).floor = c.floor := if_pos hlimit
      rw [if_pos hlimit, hfloor]
    · have hfloor : (c.edit limit state description).floor =
          max c.floor (behind.length - limit) := by
        rw [hlength]
        exact if_neg hlimit
      rw [if_neg hlimit, hfloor, ← take_reverse_drop]
      rfl
  rw [hhistory, ← hrecord]
  rfl

/-! ### Going back and forward -/

theorem back?_eq_none_iff {c : Chronicle σ} : c.back? = none ↔ c.place ≤ c.floor := by
  unfold back?
  split
  · simpa using ‹c.floor < c.place›
  · simpa using ‹¬c.floor < c.place›

theorem forth?_eq_none_iff {c : Chronicle σ} : c.forth? = none ↔ c.steps.length ≤ c.place := by
  unfold forth?
  split
  · simpa using ‹c.place < c.steps.length›
  · simpa using ‹¬c.place < c.steps.length›

theorem forth?_eq_some {c c' : Chronicle σ} (h : c.forth? = some c') :
    c.place < c.steps.length ∧ c'.place = c.place + 1 ∧ c'.floor = c.floor ∧ c'.first = c.first ∧
      c'.steps = c.steps := by
  unfold forth? at h
  split at h
  · next hplace =>
    cases h
    exact ⟨hplace, rfl, rfl, rfl, rfl⟩
  · cases h

theorem forth?_of_back? {c c' : Chronicle σ} (h : c.back? = some c') : c'.forth? = some c := by
  unfold back? at h
  split at h
  · next hfloor =>
    cases h
    have hplace := c.place_le
    have hsucc : c.place - 1 + 1 = c.place := by omega
    rw [forth?, dif_pos (by dsimp only; omega)]
    simp only [hsucc]
  · cases h

/-- **Neighbours on the line.** The edit between two states is on top of both lists: behind the
later one with the state it left, and ahead of the earlier one with the state it leads to. -/
theorem exists_edit_of_forth? {c c' : Chronicle σ} (h : c.forth? = some c') (limit : Nat) :
    ∃ description, c.edits[c.place]? = some description ∧
      (c'.history limit).past = ⟨c.present, description⟩ :: (c.history limit).past ∧
      (c.history limit).future = ⟨c'.present, description⟩ :: (c'.history limit).future := by
  obtain ⟨hplace, hplace', hfloor, hfirst, hsteps⟩ := forth?_eq_some h
  have hedit : c.edits[c.place]? = some (c.steps[c.place]).description := by
    rw [edits, List.getElem?_map, List.getElem?_eq_getElem hplace]
    rfl
  have hleft : c'.left = c.left := by rw [left, left, states, states, edits, edits, hfirst, hsteps]
  have hpresent : c'.present = (c.steps[c.place]).state := by
    have hstate := c'.present_eq
    rw [states, hplace', hsteps, List.getElem?_cons_succ, List.getElem?_map,
      List.getElem?_eq_getElem hplace] at hstate
    exact (Option.some.inj hstate).symm
  refine ⟨_, hedit, ?_, ?_⟩
  · rw [history, hleft, hplace', hfloor]
    exact reverse_drop_take_succ (c.left_getElem? c.present_eq hedit) c.floor_le
  · rw [hpresent, history, history, hsteps, hplace']
    exact List.drop_eq_getElem_cons hplace

theorem shown_forth? (c : Chronicle σ) (limit : Nat) :
    c.forth?.map (·.shown limit) = (c.history limit).redo? c.present := by
  cases hforth : c.forth? with
  | none =>
    rw [History.redo?, history, List.drop_of_length_le (forth?_eq_none_iff.mp hforth)]
    rfl
  | some c' =>
    obtain ⟨description, _, hpast, hfuture⟩ := exists_edit_of_forth? hforth limit
    rw [History.redo?, hfuture]
    dsimp only
    rw [← hpast]
    rfl

theorem shown_back? (c : Chronicle σ) (limit : Nat) :
    c.back?.map (·.shown limit) = (c.history limit).undo? c.present := by
  cases hback : c.back? with
  | none =>
    have hplace := back?_eq_none_iff.mp hback
    rw [History.undo?, history, List.drop_of_length_le]
    · rfl
    · rw [List.length_take]
      omega
  | some c' =>
    obtain ⟨description, _, hpast, hfuture⟩ := exists_edit_of_forth? (forth?_of_back? hback) limit
    rw [History.undo?, hpast]
    dsimp only
    rw [← hfuture]
    rfl

/-! ### Runs -/

section Runs

variable {c : Chronicle σ} {limit : Nat}

theorem Within.act? {c' : Chronicle σ} {action : History.Action σ}
    (h : c.Within limit) (hact : c.act? limit action = some c') : c'.Within limit := by
  cases action with
  | edit state description =>
    cases hact
    intro hlimit
    have hplace := c.place_le
    simp only [edit, if_neg hlimit.ne', List.length_append, List.length_take, List.length_singleton]
    omega
  | undo =>
    obtain ⟨_, _, hfloor, _, hsteps⟩ := forth?_eq_some (forth?_of_back? hact)
    rw [Within, ← hfloor, ← hsteps]
    exact h
  | redo =>
    obtain ⟨_, _, hfloor, _, hsteps⟩ := forth?_eq_some hact
    rw [Within, hfloor, hsteps]
    exact h

theorem Within.getD_act? (h : c.Within limit) (action : History.Action σ) :
    ((c.act? limit action).getD c).Within limit := by
  cases hact : c.act? limit action with
  | none => exact h
  | some c' => exact h.act? hact

theorem Within.run (h : c.Within limit) (actions : List (History.Action σ)) :
    (c.run limit actions).Within limit := by
  induction actions generalizing c with
  | nil => exact h
  | cons action actions ih => exact ih (h.getD_act? action)

/-- **An action of a history is one of its line**, as long as the line keeps to the limit. -/
theorem shown_act? (h : c.Within limit) (action : History.Action σ) :
    (c.act? limit action).map (·.shown limit) = (c.history limit).act? c.present action := by
  cases action with
  | edit state description =>
    rw [Chronicle.act?, History.act?, Option.map_some, shown, present_edit, history_edit h]
  | undo => exact c.shown_back? limit
  | redo => exact c.shown_forth? limit

theorem shown_run (h : c.Within limit) (actions : List (History.Action σ)) :
    (c.run limit actions).shown limit = History.run (c.shown limit) actions := by
  induction actions generalizing c with
  | nil => rfl
  | cons action actions ih =>
    have hstep : ((c.act? limit action).getD c).shown limit =
        ((c.history limit).act? c.present action).getD (c.shown limit) := by
      rw [← shown_act? h, Option.getD_map]
    rw [Chronicle.run, List.foldl_cons, ← Chronicle.run, ih (h.getD_act? action), hstep]
    rfl

end Runs

/-! ## What can be observed -/

/-- A state and its history look as a line says. -/
structure Shows (c : Chronicle σ) (d : σ × History σ) : Prop where
  /-- The state is the one at the place. -/
  current : c.states[c.place]? = some d.1
  /-- There is a way back exactly above the floor. -/
  canUndo : d.2.canUndo = true ↔ c.floor < c.place
  /-- There is a way forward exactly before the end. -/
  canRedo : d.2.canRedo = true ↔ c.place < c.steps.length
  /-- The way back leads to the state before. -/
  undo : (d.2.undo? d.1).map Prod.fst =
    if c.floor < c.place then c.states[c.place - 1]? else none
  /-- The way forward leads to the state after. -/
  redo : (d.2.redo? d.1).map Prod.fst =
    if c.place < c.steps.length then c.states[c.place + 1]? else none
  /-- What the way back takes back is the edit that led here. -/
  undoDescription : d.2.undoDescription? =
    if c.floor < c.place then c.edits[c.place - 1]? else none
  /-- What the way forward does again is the edit that leads on. -/
  redoDescription : d.2.redoDescription? =
    if c.place < c.steps.length then c.edits[c.place]? else none
  /-- How far the way back goes. -/
  undoLevels : d.2.past.length = c.place - c.floor
  /-- How far the way forward goes. -/
  redoLevels : d.2.future.length = c.steps.length - c.place
  /-- A limit holds for both ways together. -/
  bounded : 0 < d.2.limit → c.steps.length - c.floor ≤ d.2.limit

theorem redo_shown (c : Chronicle σ) (limit : Nat) :
    ((c.history limit).redo? c.present).map Prod.fst =
        (if c.place < c.steps.length then c.states[c.place + 1]? else none) ∧
      (c.history limit).redoDescription? =
        if c.place < c.steps.length then c.edits[c.place]? else none := by
  rw [← shown_forth?, History.redoDescription?]
  cases hforth : c.forth? with
  | none =>
    have hplace := forth?_eq_none_iff.mp hforth
    rw [if_neg (by omega), if_neg (by omega), history, List.drop_of_length_le hplace]
    exact ⟨rfl, rfl⟩
  | some c' =>
    obtain ⟨hplace, hplace', _, hfirst, hsteps⟩ := forth?_eq_some hforth
    obtain ⟨description, hedit, _, hfuture⟩ := exists_edit_of_forth? hforth limit
    have hstates : c'.states = c.states := by rw [states, states, hfirst, hsteps]
    rw [if_pos hplace, if_pos hplace, hfuture, hedit, ← hplace', ← hstates, present_eq]
    exact ⟨rfl, rfl⟩

theorem undo_shown (c : Chronicle σ) (limit : Nat) :
    ((c.history limit).undo? c.present).map Prod.fst =
        (if c.floor < c.place then c.states[c.place - 1]? else none) ∧
      (c.history limit).undoDescription? =
        if c.floor < c.place then c.edits[c.place - 1]? else none := by
  rw [← shown_back?, History.undoDescription?]
  cases hback : c.back? with
  | none =>
    have hplace := back?_eq_none_iff.mp hback
    have hpast : (c.history limit).past = [] := by
      rw [← List.length_eq_zero_iff, length_past]
      omega
    rw [if_neg (by omega), if_neg (by omega), hpast]
    exact ⟨rfl, rfl⟩
  | some c' =>
    -- the state before is one from which this state is the next
    obtain ⟨_, hplace', hfloor, hfirst, hsteps⟩ := forth?_eq_some (forth?_of_back? hback)
    obtain ⟨description, hedit, hpast, _⟩ := exists_edit_of_forth? (forth?_of_back? hback) limit
    have hstates : c.states = c'.states := by rw [states, states, hfirst, hsteps]
    have hedits : c.edits = c'.edits := by rw [edits, edits, hsteps]
    have hplace : c.floor < c.place := by
      have := c'.floor_le
      omega
    have hbefore : c.place - 1 = c'.place := by omega
    rw [if_pos hplace, if_pos hplace, hpast, hbefore, hstates, hedits, hedit, present_eq]
    exact ⟨rfl, rfl⟩

theorem shows_shown {c : Chronicle σ} {limit : Nat} (h : c.Within limit) :
    c.Shows (c.shown limit) where
  current := c.present_eq
  canUndo := by
    rw [shown, History.canUndo, Bool.not_eq_true', List.isEmpty_eq_false_iff, ← List.length_pos_iff,
      length_past, Nat.sub_pos_iff_lt]
  canRedo := by
    rw [shown, History.canRedo, Bool.not_eq_true', List.isEmpty_eq_false_iff, ← List.length_pos_iff,
      length_future, Nat.sub_pos_iff_lt]
  undo := (c.undo_shown limit).1
  redo := (c.redo_shown limit).1
  undoDescription := (c.undo_shown limit).2
  redoDescription := (c.redo_shown limit).2
  undoLevels := c.length_past limit
  redoLevels := c.length_future limit
  bounded := h

/-- **A history goes along a line.** -/
theorem shows_run (limit : Nat) (first : σ) (actions : List (History.Action σ)) :
    ((start first).run limit actions).Shows (History.run (first, .empty limit) actions) := by
  have hwithin := within_start limit first
  have hshown : (start first).shown limit = (first, .empty limit) := rfl
  rw [← hshown, ← shown_run hwithin]
  exact shows_shown (hwithin.run actions)

-- the limit raises the floor, so the second way back is none
example :
    let c := (start 0).run 1 [.edit 1 "a", .edit 2 "b", .undo, .undo]
    c.states = [0, 1, 2] ∧ c.floor = 1 ∧ c.place = 1 := by decide

end Chronicle

/-! ## Editors -/

/-- What a command that made a change does to the history, given the formula it led to. -/
def SessionCommand.action (tree : FormulaTree) : SessionCommand → History.Action FormulaTree
  | .edit event => .edit tree event.edit.description
  | .choose name => .edit tree s!"choose operator {name}"
  | .undo => .undo
  | .redo => .redo

namespace Editor

/-- What a call does to the history. A call that fails, misses or has nothing to change does
nothing, and so do ticks and answers. -/
def action? (e : Editor) : SessionEvent → Option (History.Action FormulaTree)
  | .command command =>
    match Session.perform e command with
    | .ok (outcome, e') => if outcome.changed then some (command.action e'.tree) else none
    | .error _ => none
  | .answer _ => none
  | .tick => none

def actions (e : Editor) : List SessionEvent → List (History.Action FormulaTree)
  | [] => []
  | event :: events => (e.action? event).toList ++ (e.after event).actions events

theorem perform_act? {e e' : Editor} {command : SessionCommand} {outcome : Outcome}
    (h : Session.perform e command = .ok (outcome, e')) (hchanged : outcome.changed = true) :
    e.history.act? e.tree (command.action e'.tree) = some (e'.tree, e'.history) := by
  rcases Session.perform_cases h with ⟨hsame, _⟩ | ⟨_, hcases⟩
  · rw [hsame] at hchanged
    cases hchanged
  · rcases hcases with ⟨_, _, rfl, rfl⟩ | ⟨_, _, rfl, rfl⟩ | ⟨_, _, rfl, hundo, rfl⟩ |
      ⟨_, _, rfl, hredo, rfl⟩
    · rfl
    · rfl
    · exact hundo
    · exact hredo

theorem after_action? (e : Editor) (event : SessionEvent) :
    History.run (e.tree, e.history) (e.action? event).toList =
      ((e.after event).tree, (e.after event).history) := by
  cases event with
  | command command =>
    rw [action?, after]
    cases hperform : Session.perform e command with
    | error fault => rfl
    | ok result =>
      obtain ⟨outcome, e'⟩ := result
      dsimp only
      by_cases hchanged : outcome.changed = true
      · rw [if_pos hchanged, Option.toList_some, History.run, List.foldl_cons, List.foldl_nil,
          perform_act? hperform hchanged, Option.getD_some]
      · rw [if_neg hchanged]
        rcases Session.perform_cases hperform with ⟨_, rfl⟩ | ⟨hchange, _⟩
        · rfl
        · exact absurd hchange hchanged
  | answer answer => rfl
  | tick => rfl

theorem run_actions (e : Editor) (events : List SessionEvent) :
    History.run (e.tree, e.history) (e.actions events) =
      ((e.run events).tree, (e.run events).history) := by
  induction events generalizing e with
  | nil => rfl
  | cons event events ih =>
    rw [actions, History.run, List.foldl_append, ← History.run, ← History.run, after_action?, ih]
    rfl

theorem after_of_unchanged {e : Editor} {command : SessionCommand}
    (h : ∀ outcome e', Session.perform e command = .ok (outcome, e') → outcome.changed = false) :
    e.after (.command command) = e := by
  rw [after]
  split
  · next outcome e' hperform =>
    rcases Session.perform_cases hperform with ⟨_, hsame⟩ | ⟨hchanged, _⟩
    · exact hsame
    · rw [h outcome e' hperform] at hchanged
      cases hchanged
  · rfl

/-- **The history of an editor is a line of formulas.** A history with any limit goes along a line
as its actions say. An editor, which has a limit of a hundred, goes along the line of the formulas
that its calls led to, and stays where it is on calls that fail, miss or have nothing to change. -/
theorem run_shows_chronicle :
    (∀ (σ : Type) (limit : Nat) (first : σ) (actions : List (History.Action σ)),
      ((Chronicle.start first).run limit actions).Shows
        (History.run (first, .empty limit) actions)) ∧
      (∀ (g : Grammar) (name : Option String) (e : Editor), launch g name = .ok e → ∀ events,
        ((Chronicle.start e.tree).run 100 (e.actions events)).Shows
          ((e.run events).tree, (e.run events).history)) ∧
      ∀ (e : Editor) (command : SessionCommand),
        (∀ outcome e', Session.perform e command = .ok (outcome, e') → outcome.changed = false) →
        e.after (.command command) = e ∧ e.actions [.command command] = [] := by
  refine ⟨fun σ limit first actions ↦ Chronicle.shows_run limit first actions, ?_, ?_⟩
  · intro g name e hlaunch events
    obtain ⟨_, t, _, rfl⟩ := launch_eq_ok hlaunch
    rw [← run_actions]
    exact Chronicle.shows_run History.defaultLimit t _
  · intro e command h
    refine ⟨after_of_unchanged h, ?_⟩
    rw [actions, action?]
    split
    · next outcome e' hperform =>
      rw [h outcome e' hperform]
      rfl
    · rfl

theorem run_shows_chronicle_logic :
    let g := (Grammar.ofJson logic).2
    let e := ofTree g (.node (.plain (.operator "flag")) [.leaf (.ofAtom .bool "false")])
    let events := [.command (.choose "test"), .command (.edit ⟨[0], .selectVariant "1"⟩),
      .command (.edit ⟨[7], .toggleOpen⟩), .command (.choose "none"), .command .undo, .tick,
      .command .undo, .command .undo, .command .redo]
    let c := (Chronicle.start e.tree).run 100 (e.actions events)
    launch g none = .ok e ∧ c.place = 1 ∧ c.floor = 0 ∧
      c.edits = ["choose operator test", "select variant 1"] ∧
      c.Shows ((e.run events).tree, (e.run events).history) ∧
      e.after (.command (.choose "none")) = e := by
  intro g e events c
  have hlaunch : launch g none = .ok e := by decide +kernel
  obtain ⟨_, hrun, hstays⟩ := run_shows_chronicle
  have hmiss : Session.perform e (.choose "none") =
      .ok (⟨false, [], some (.unknownOperator "none")⟩, e) := by decide +kernel
  refine ⟨hlaunch, by decide +kernel, by decide +kernel, by decide +kernel,
    hrun g none e hlaunch events, (hstays e (.choose "none") ?_).1⟩
  intro outcome e' hperform
  rw [hmiss] at hperform
  cases hperform
  rfl

end Editor

end FormulaEdit
