import FormulaEdit.Json.Printer
import FormulaEdit.Json.Reader

/-!
# Settings

A project may keep its settings in a file in its folder. Settings that the file does not give have
defaults.
-/

namespace FormulaEdit

/-- The settings of a project. -/
structure Config where
  /-- The file that describes the grammar. -/
  grammar : String
  /-- The address of the server that highlights formulas. -/
  baseUrl : String
  /-- The time between two ticks in milliseconds. -/
  tickMillis : Nat
  /-- How much is logged. -/
  logLevel : String
  deriving DecidableEq, Repr

namespace Config

/-- The settings of a project without a file. -/
def default : Config where
  grammar := "grammar.json"
  baseUrl := "http://localhost:8080"
  tickMillis := 500
  logLevel := "warn"

/-- The name of the file. -/
def fileName : String := "tsformula.config.json"

/-! ## Reading -/

open Json

/-- Take a value and store it. -/
def stored {α : Type} (value : Scan α) (store : α → Config → Config) (config : Config) :
    Scan Config := do
  return store (← value) config

/-- The scans of the settings in the order of their declaration. -/
def fields : List (String × (Config → Scan Config)) := [
  ("grammar", stored Scan.stringValue fun grammar c ↦ { c with grammar }),
  ("baseUrl", stored Scan.stringValue fun baseUrl c ↦ { c with baseUrl }),
  ("tickMillis", stored Scan.natValue fun tickMillis c ↦ { c with tickMillis }),
  ("logLevel", stored Scan.stringValue fun logLevel c ↦ { c with logLevel })]

/-- Fail because of a repeated key. The object is left first if it ends there. -/
def repeated {α : Type} (key : String) : Scan α := do
  if (← Scan.nextToken) = some '\x7d' then Scan.advance
  Scan.fail (.mismatch s!"duplicate field `{key}`")

/-- Take the member of a key. Keys without meaning are passed over, all others may come once. -/
def member (key : String) (state : List String × Config) : Scan (List String × Config) := do
  let (seen, config) := state
  match fields.lookup key with
  | none =>
    Scan.colon
    Scan.skip
    return state
  | some scan =>
    if seen.contains key then repeated key
    else
      Scan.colon
      return (key :: seen, ← scan config)

/-- The scan of an item in place of a member. -/
def item (scan : Config → Scan Config) (state : List String × Config) :
    Scan (List String × Config) := do
  return (state.1, ← scan state.2)

/-- Read settings from the text of a file. -/
def read (source : String) : Except Json.Fault Config :=
  let items := fields.map fun (_, scan) ↦ item scan
  let scan := Scan.record "struct Config" member items ([], default)
  (scan.run source).map Prod.snd

/-! ## Use -/

/-- The settings as a document. -/
def doc (config : Config) : JsonDoc :=
  .obj [
    ("grammar", .str config.grammar),
    ("baseUrl", .str config.baseUrl),
    ("tickMillis", .nat config.tickMillis),
    ("logLevel", .str config.logLevel)]

/-- A path as seen from a folder. An absolute path stays as it is. -/
def joined (folder path : String) : String :=
  match path.toList with
  | '/' :: _ => path
  | _ => folder ++ "/" ++ path

/-- The file that describes the grammar, unless another one is given. -/
def grammarPath (config : Config) (folder : String) (explicit : Option String) : String :=
  joined folder (explicit.getD config.grammar)

/-- The time between two ticks in milliseconds. -/
def tick (config : Config) : Nat := max config.tickMillis 1

end Config

end FormulaEdit
