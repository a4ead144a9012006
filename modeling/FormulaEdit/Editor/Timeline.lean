import FormulaEdit.Editor.Session

/-!
# Sessions in time

A session with a clock: ticks come at equal distances and the answers of the highlighter after a
delay. Handling takes no time, and answers that are due come before a tick. Time moves only when it
is told to.
-/

namespace FormulaEdit

/-- A session, the time and what is to come. -/
structure Timeline where
  /-- The session. -/
  session : Session
  /-- The present time. -/
  now : Nat
  /-- The time between two ticks. -/
  period : Nat
  /-- The time of the next tick. -/
  nextTick : Nat
  /-- The answers on their way and the time of their arrival, those asked for first in front. -/
  awaited : List (Nat × Highlighting)
  /-- The texts that were sent, the last one in front. -/
  sent : List String

namespace Timeline

/-- A session at the start of time. -/
def start (session : Session) (period : Nat) : Timeline where
  session
  now := 0
  period
  nextTick := period
  awaited := []
  sent := []

/-- The answer that comes next: the first one of those with the earliest time. -/
def soonest? : List (Nat × Highlighting) → Option (Nat × Highlighting)
  | [] => none
  | (due, answer) :: rest =>
    match soonest? rest with
    | some next => if next.1 < due then some next else some (due, answer)
    | none => some (due, answer)

/-- The answers on their way without the first one that is due at a time. -/
def dropAt (time : Nat) : List (Nat × Highlighting) → List (Nat × Highlighting)
  | [] => []
  | (due, answer) :: rest => if due = time then rest else (due, answer) :: dropAt time rest

/-- Handle commands. No time passes. -/
def send (t : Timeline) (commands : List SessionCommand) : Timeline :=
  { t with session := commands.foldl Session.handle t.session }

/-- Handle the tick that is due. A text to send is answered after the delay of the highlighter. -/
def tick (highlighter : String → Nat × Highlighting) (t : Timeline) : Timeline :=
  let (text?, session) := t.session.tick
  let t := { t with session, now := t.nextTick, nextTick := t.nextTick + t.period }
  match text? with
  | none => t
  | some text =>
    let (delay, answer) := highlighter text
    { t with awaited := t.awaited ++ [(t.now + delay, answer)], sent := text :: t.sent }

/-- The timeline after the next answer or tick, if one comes up to a moment. -/
def next? (highlighter : String → Nat × Highlighting) (moment : Nat) (t : Timeline) :
    Option Timeline :=
  match (soonest? t.awaited).filter fun (due, _) ↦ due ≤ t.nextTick && due ≤ moment with
  | some (due, answer) =>
    some
      { t with
        session := t.session.answer answer
        now := due
        awaited := dropAt due t.awaited }
  | none => if t.nextTick ≤ moment then some (t.tick highlighter) else none

/-- Let time pass up to a moment, with at most `fuel` answers and ticks on the way. -/
def advanceWithin (highlighter : String → Nat × Highlighting) (moment : Nat) :
    Nat → Timeline → Timeline
  | 0, t => { t with now := moment }
  | fuel + 1, t =>
    match t.next? highlighter moment with
    | some t => advanceWithin highlighter moment fuel t
    | none => { t with now := moment }

/-- Let time pass. Every tick sends one text at most, which bounds the number of answers. -/
def sleep (highlighter : String → Nat × Highlighting) (duration : Nat) (t : Timeline) : Timeline :=
  let ticks := duration / t.period + 1
  advanceWithin highlighter (t.now + duration) (2 * ticks + t.awaited.length) t

end Timeline

end FormulaEdit
