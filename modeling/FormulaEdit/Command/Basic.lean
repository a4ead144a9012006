import FormulaEdit.Command.Arguments
import FormulaEdit.Command.Host
import FormulaEdit.Config.Basic
import FormulaEdit.Grammar.Load
import FormulaEdit.Terminal.Show

/-!
# Commands

What the commands do. Each loads the settings of the folder it runs in. A command that fails says
why.
-/

namespace FormulaEdit

/-- Where and how a command runs. -/
structure Context where
  /-- The folder that the command runs in. -/
  folder : String
  /-- Whether the output is coloured. -/
  colour : Bool

/-- Why a command fails. -/
inductive CommandError where
  | file (fault : FileFault)
  | settings (message : String)
  | unreadableGrammar (path : String)
  | editor (error : EditorError)
  | noOperator (path : String)
  | problems (count : Nat)
  deriving DecidableEq, Repr

/-- The wording of an error. -/
def CommandError.message : CommandError → String
  | .file fault => fault.message
  | .settings message => message
  | .unreadableGrammar path => s!"Failed to read grammar {path}"
  | .editor error => error.message
  | .noOperator path => s!"No usable operator in {path}"
  | .problems count => s!"Grammar has {count} problem(s)"

namespace Command

variable {m : Type → Type} [Monad m] [Host m]

/-- A command in action. -/
abbrev Action (m : Type → Type) := ExceptT CommandError m

/-- Fail with an error if an answer is one. -/
def orFail {ε α : Type} (error : ε → CommandError) : Except ε α → Action m α
  | .ok a => pure a
  | .error e => throw (error e)

/-- Whether there is a file or a folder at a path. -/
def isThere (path : String) : Action m Bool := ExceptT.lift (Host.pathExists path)

/-- The text of a file. -/
def readText (error : FileFault → CommandError) (path : String) : Action m String := do
  orFail error (← ExceptT.lift (Host.readFile path))

/-- Put a text into a file. -/
def writeText (path text : String) : Action m Unit := do
  orFail .file (← ExceptT.lift (Host.writeFile path text))

/-- Print a line. -/
def say (line : String) : Action m Unit := ExceptT.lift (Host.print line)

/-- Print lines. -/
def sayAll : List String → Action m Unit
  | [] => pure ()
  | line :: lines => do
    say line
    sayAll lines

/-- The settings of a folder. -/
def loadConfig (ctx : Context) : Action m Config := do
  let path := Config.joined ctx.folder Config.fileName
  if ← isThere path then
    let source ← readText .file path
    orFail (fun fault ↦ .settings (fault.message source)) (Config.read source)
  else return .default

/-- The grammar that a file describes. -/
def loadGrammar (path : String) : Action m (List GrammarError × Grammar) := do
  let source ← readText (fun _ ↦ .unreadableGrammar path) path
  return Grammar.read source

/-- An editor on the grammar that a file describes. -/
def loadEditor (path : String) (operator : Option String) : Action m Editor := do
  let (errors, grammar) ← loadGrammar path
  let editor ← orFail .editor (Editor.launch grammar operator)
  return { editor with startupErrors := errors.map (·.message) }

/-! ## Setting up a project -/

/-- The grammar that a new project starts with. -/
def exampleGrammar : String := "\n".intercalate [
  "\x7b",
  "  \"operators\": [",
  "    \x7b",
  "      \"name\": \"series\",",
  "      \"returns\": \"Series\",",
  "      \"args\": [",
  "        \x7b \"name\": \"name\", \"kind\": \"str\", \"default\": \"\\\"my.series\\\"\" \x7d,",
  "        \x7b \"name\": \"fill\", \"kind\": \"Union[number, bool]\" \x7d",
  "      ]",
  "    \x7d,",
  "    \x7b",
  "      \"name\": \"add\",",
  "      \"returns\": \"Series\",",
  "      \"args\": [\x7b \"name\": \"series\", \"kind\": \"List[Series]\" \x7d]",
  "    \x7d,",
  "    \x7b",
  "      \"name\": \"scale\",",
  "      \"returns\": \"Series\",",
  "      \"args\": [",
  "        \x7b \"name\": \"series\", \"kind\": \"Series\" \x7d,",
  "        \x7b \"name\": \"factor\", \"kind\": \"Union[number, Series]\", \"default\": \"1\" \x7d",
  "      ]",
  "    \x7d,",
  "    \x7b",
  "      \"name\": \"slice\",",
  "      \"returns\": \"Series\",",
  "      \"args\": [",
  "        \x7b \"name\": \"series\", \"kind\": \"Series\" \x7d,",
  "        \x7b \"name\": \"fromdate\", \"kind\": \"timestamp\", \"default\": \"2024-01-01\" \x7d,",
  "        \x7b \"name\": \"todate\", \"kind\": \"timestamp\", \"default\": \"2024-12-31\" \x7d",
  "      ]",
  "    \x7d",
  "  ]",
  "\x7d",
  ""]

/-- Set up a project. Files that are there are kept unless `force` says otherwise. -/
def runInit (ctx : Context) (grammar : String) (baseUrl : Option String) (force : Bool) :
    Action m Unit := do
  let configPath := Config.joined ctx.folder Config.fileName
  if (← isThere configPath) && !force then
    say (Style.yellow.paint ctx.colour "⚠️" ++ " " ++
      Style.brightWhite.paint ctx.colour Config.fileName ++ " already exists")
    say "Use --force to overwrite"
  else
    say (Style.boldBrightBlue.paint ctx.colour "Initializing tsformula project...")
    let created (name : String) : String :=
      "  " ++ Style.green.paint ctx.colour "✓" ++ " Created " ++ name
    let grammarPath := Config.joined ctx.folder grammar
    if !(← isThere grammarPath) || force then
      orFail .file (← ExceptT.lift (Host.createParents grammarPath))
      writeText grammarPath exampleGrammar
      say (created grammar)
    let config :=
      { Config.default with grammar, baseUrl := baseUrl.getD Config.default.baseUrl }
    writeText configPath config.doc.text
    say (created Config.fileName)
    sayAll [
      "",
      "Next steps:",
      s!"  1. Describe your operators in {grammar}",
      "  2. Run: tsformula check",
      "  3. Run: tsformula edit"]

/-! ## Checking a grammar -/

/-- An argument as it is declared. -/
def argumentText (arg : Argument Kind) : String :=
  arg.name ++ ": " ++ arg.kind.text ++
    match arg.initial with
    | some initial => " = " ++ initial
    | none => ""

/-- An operator as it is declared. -/
def signature (op : Operator Kind) : String :=
  op.name ++ "(" ++ ", ".intercalate (op.args.map argumentText) ++ ")" ++
    match op.returns with
    | some category => " -> " ++ category
    | none => ""

/-- Report the operators of a grammar and its problems. -/
def runCheck (ctx : Context) (grammar : Option String) (strict : Bool) : Action m Unit := do
  let config ← loadConfig ctx
  let path := config.grammarPath ctx.folder grammar
  let (errors, g) ← loadGrammar path
  let count := g.operators.length
  say (Style.boldBrightBlue.paint ctx.colour "Checking" ++ " " ++
    Style.brightWhite.paint ctx.colour path)
  say ""
  sayAll (errors.map fun error ↦ "  " ++ Style.red.paint ctx.colour "✗" ++ " " ++ error.message)
  sayAll (g.operators.map fun op ↦ "  " ++ Style.green.paint ctx.colour "✓" ++ " " ++ signature op)
  say ""
  if errors.isEmpty then
    say (Style.boldGreen.paint ctx.colour "✓" ++ s!" {count} operators")
  else
    say (Style.yellow.paint ctx.colour "⚠️" ++ s!" {count} operators, {errors.length} " ++
      (if errors.length = 1 then "problem" else "problems"))
  if count = 0 then throw (.noOperator path)
  if strict && !errors.isEmpty then throw (.problems errors.length)

/-! ## Printing a new formula -/

/-- What can be done with a node, as a document. -/
def controlDoc : Control → JsonDoc
  | .operatorSelector current choices =>
    .obj [("type", .str "operatorSelector"), ("current", .str current),
      ("choices", .arr (choices.map .str))]
  | .variantSelector current variants =>
    .obj [("type", .str "variantSelector"), ("current", .nat current),
      ("variants", .arr (variants.map .str))]
  | .listControls length element =>
    .obj [("type", .str "listControls"), ("len", .nat length), ("element", .str element)]
  | .atomInput atom value invalid =>
    .obj [("type", .str "atomInput"), ("atom", .str atom.name), ("value", .str value),
      ("invalid", (invalid.map JsonDoc.str).getD .null)]

/-- What is seen of a node, as a document. -/
def viewDoc (view : NodeView) : JsonDoc :=
  .obj [("path", .arr (view.path.map .nat)), ("depth", .nat view.depth), ("label", .str view.label),
    ("isOpen", .bool view.isOpen), ("control", controlDoc view.control)]

/-- Warn of lines. -/
def warnAll : List String → Action m Unit
  | [] => pure ()
  | line :: lines => do
    ExceptT.lift (Host.warn line)
    warnAll lines

/-- Print a new formula, or what is seen of its nodes. -/
def runRender (ctx : Context) (grammar operator : Option String) (pretty outline : Bool) :
    Action m Unit := do
  let config ← loadConfig ctx
  let editor ← loadEditor (config.grammarPath ctx.folder grammar) operator
  warnAll (editor.startupErrors.map fun error ↦
    Style.yellow.paint ctx.colour "⚠️" ++ " " ++ error)
  if outline then say (JsonDoc.arr (editor.outline.map viewDoc)).text
  else if pretty then say editor.prettyText
  else say editor.text

end Command

end FormulaEdit
