import FormulaEdit.Command.Basic
import FormulaEdit.Editor.Line

/-!
# Editing line by line

The client of a session sends one command for each line that holds one, waits until the session has
handled it and reports what came of it from the snapshot that the session published.
-/

namespace FormulaEdit

/-- A user at a terminal. -/
structure Client where
  /-- The session. -/
  session : Session
  /-- The number of commands sent so far. -/
  sent : Nat
  deriving DecidableEq, Repr

namespace Client

/-- A client of a new session. -/
def start (editor : Editor) : Client := ⟨.start editor, 0⟩

/-- Send a command. The session handles it at once. -/
def send (client : Client) (command : SessionCommand) : Client :=
  ⟨client.session.handle command, client.sent + 1⟩

/-- What came of the last command. -/
def report (colour : Bool) (snapshot : SessionSnapshot) : String :=
  match snapshot.lastError, snapshot.lastOutcome.bind (·.miss) with
  | some error, _ => Style.red.paint colour "✗" ++ " " ++ error
  | none, some miss => Style.yellow.paint colour "⚠️" ++ " " ++ miss.message
  | none, none => Style.green.paint colour "✓" ++ " " ++ snapshot.formula.current

/-- What is printed for a line, the client after it, and whether to go on. -/
def respond (colour : Bool) (client : Client) (line : String) : List String × Client × Bool :=
  match Line.read line with
  | .ok .quit => ([], client, false)
  | .ok .help => ([Line.helpText], client, true)
  | .ok .display =>
    (showLines colour client.session.latest.formula client.session.latest.outline, client, true)
  | .ok (.send command) =>
    let client := client.send command
    ([report colour client.session.latest], client, true)
  | .error fault => ([Style.red.paint colour "✗" ++ " " ++ fault.message], client, true)

end Client

namespace Command

variable {m : Type → Type} [Monad m] [Host m]

/-- Print lines, whatever may happen to them. -/
def printAll : List String → m Unit
  | [] => pure ()
  | line :: lines => do
    Host.print line
    printAll lines

/-- Edit a formula line by line and print it at the end. The formula is not highlighted
meanwhile. -/
def runEdit (ctx : Context) (grammar operator : Option String) : Action m Unit := do
  let config ← loadConfig ctx
  let editor ← loadEditor (config.grammarPath ctx.folder grammar) operator
  sayAll (editor.startupErrors.map fun error ↦
    Style.yellow.paint ctx.colour "⚠️" ++ " " ++ error)
  say (Style.boldBrightBlue.paint ctx.colour "tsformula" ++ " " ++
    Style.brightWhite.paint ctx.colour editor.text ++ "  (type " ++
    Style.bold.paint ctx.colour "help" ++ " for commands)")
  let step (line : String) (client : Client) : m (Client × Bool) := do
    let (lines, client, goOn) := client.respond ctx.colour line
    printAll lines
    return (client, goOn)
  let client ← ExceptT.lift (Host.interact step (Client.start editor))
  say client.session.editor.text

/-- Run a command. -/
def run (ctx : Context) : Command → Action m Unit
  | .init grammar baseUrl force => runInit ctx grammar baseUrl force
  | .check grammar strict => runCheck ctx grammar strict
  | .render grammar operator pretty outline => runRender ctx grammar operator pretty outline
  | .edit grammar operator _ _ => runEdit ctx grammar operator

/-- Run a command line and give the exit code. -/
def runLine (ctx : Context) (words : List String) : m Nat := do
  match Command.read words with
  | .error stop => return stop.code
  | .ok command =>
    match ← (run ctx command).run with
    | .ok _ => return 0
    | .error error =>
      Host.warn (Style.boldRed.paint ctx.colour "Error:" ++ " " ++ error.message)
      return 1

end Command

end FormulaEdit
