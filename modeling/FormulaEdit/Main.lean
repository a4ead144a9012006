import FormulaEdit.Command.Edit
import FormulaEdit.Text.Lines

/-!
# The program

The commands on a real computer. Output is coloured on a terminal, unless the environment says
otherwise.
-/

namespace FormulaEdit.Program

/-- The reason for a failed operation. -/
def faultOf : IO.Error → FileFault
  | .noFileOrDirectory _ _ _ => .notFound
  | .alreadyExists _ _ _ => .alreadyExists
  | error => .other (toString error)

/-- Run an operation that may fail. -/
def attempt {α : Type} (action : IO α) : IO (Except FileFault α) := do
  match ← action.toBaseIO with
  | .ok a => return .ok a
  | .error error => return .error (faultOf error)

/-- The part of a path before its last slash. -/
def parentOf (path : String) : String :=
  String.ofList ((path.toList.reverse.dropWhile (· != '/')).drop 1).reverse

/-- Hand typed lines to a step until they end or the step says so. -/
partial def interactWith {σ : Type} (input : IO.FS.Stream) (step : String → σ → IO (σ × Bool))
    (state : σ) : IO σ := do
  match Text.lines (← input.getLine) with
  | [] => return state
  | line :: _ =>
    let (state, goOn) ← step line state
    if goOn then interactWith input step state else return state

instance : Host IO where
  pathExists path := return (← attempt (IO.FS.realPath path)).toBool
  readFile path := attempt (IO.FS.readFile path)
  createParents path := attempt (IO.FS.createDirAll (parentOf path))
  writeFile path text := attempt (IO.FS.writeFile path text)
  print line := IO.println line
  warn line := IO.eprintln line
  interact step state := do interactWith (← IO.getStdin) step state

/-- Whether a variable of the environment is set, and not to zero. -/
def isOn (name : String) : IO (Option Bool) := do
  return (← IO.getEnv name).map (· != "0")

/-- Whether the output is coloured. -/
def wantsColour : IO Bool := do
  if (← isOn "CLICOLOR_FORCE") = some true then return true
  else if (← isOn "NO_COLOR").isSome then return false
  else if (← isOn "CLICOLOR") = some false then return false
  else (← IO.getStdout).isTty

/-- How the program is called. -/
def usage : String :=
  "Usage: tsformula <COMMAND>\n\nCommands:\n" ++
  "  init [-g GRAMMAR] [-b BASE_URL] [-f]\n" ++
  "  check [GRAMMAR] [--strict]\n" ++
  "  render [GRAMMAR] [-o OPERATOR] [-p] [--outline]\n" ++
  "  edit [GRAMMAR] [-o OPERATOR] [--base-url BASE_URL] [--tick-millis MILLIS]"

end FormulaEdit.Program

open FormulaEdit

/-- Run the command line. -/
def main (words : List String) : IO UInt32 := do
  match Command.read words with
  | .error .misuse => IO.eprintln Program.usage
  | .error .information => IO.println Program.usage
  | .ok _ => pure ()
  let ctx : Context := ⟨(← IO.currentDir).toString, ← Program.wantsColour⟩
  return UInt32.ofNat (← Command.runLine ctx words)
