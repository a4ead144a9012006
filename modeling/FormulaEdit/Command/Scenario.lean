import FormulaEdit.Command.Store
import FormulaEdit.Text.Lines

/-!
# A described computer

A scenario is a store of files and folders, the lines that a user types and the lines that were
printed so far. Commands run on it without touching anything real.
-/

namespace FormulaEdit

/-- A described computer. -/
structure Scenario where
  /-- The files and folders. -/
  store : Store
  /-- The lines that the user is going to type. -/
  input : List String
  /-- The lines printed so far, the last one in front. -/
  output : List String
  /-- The warnings printed so far, the last one in front. -/
  warnings : List String
  deriving DecidableEq, Repr

namespace Scenario

/-- Lines in the order they were printed, as one text. -/
def printed (lines : List String) : String :=
  String.join (lines.reverse.map (· ++ "\n"))

/-- Hand lines to a step until they end or the step says so. -/
def feed {σ : Type} (step : String → σ → StateM Scenario (σ × Bool)) :
    List String → σ → StateM Scenario σ
  | [], state => return state
  | line :: lines, state => do
    modify fun s ↦ { s with input := lines }
    let (state, goOn) ← step line state
    if goOn then feed step lines state else return state

instance : Host (StateM Scenario) where
  pathExists path := return (← get).store.pathExists path
  readFile path := return (← get).store.textAt path
  createParents path := do
    let s ← get
    let (store, result) := s.store.createParents path
    set { s with store }
    return result
  writeFile path text := do
    match (← get).store.putText path text with
    | .ok store =>
      modify fun s ↦ { s with store }
      return .ok ()
    | .error fault => return .error fault
  print line := modify fun s ↦ { s with output := line :: s.output }
  warn line := modify fun s ↦ { s with warnings := line :: s.warnings }
  interact step state := do feed step (← get).input state

end Scenario

end FormulaEdit
