import FormulaEdit.Editor.Session

/-!
# Typed lines

A user of the terminal types one command a line. The first word says what to do; a path and a text
may follow. The text is the rest of the line and may contain blanks.
-/

namespace FormulaEdit

/-- What a user asks for with a line. -/
inductive Line where
  | display
  | help
  | quit
  | send (command : SessionCommand)
  deriving DecidableEq, Repr

/-- What is wrong with a line. -/
inductive LineFault where
  | incomplete (usage : String)
  | badPath (error : EditorError)
  | unknownCommand (word : String)
  deriving DecidableEq, Repr

/-- The wording of a fault. -/
def LineFault.message : LineFault → String
  | .incomplete usage => s!"usage: {usage}"
  | .badPath error => error.message
  | .unknownCommand word => s!"Unknown command '{word}' (try 'help')"

namespace Line

open Text

/-- The first word of a text and the rest, without blanks around them. -/
def splitWord (cs : List Char) : List Char × List Char :=
  let body := trim cs
  (body.takeWhile (!isBlank ·), trimStart (body.dropWhile (!isBlank ·)))

/-- The edit of the node at a path. -/
def editAt (path : List Char) (edit : Edit) : Except LineFault Line :=
  match NodePath.read (String.ofList path) with
  | .ok path => .ok (.send (.edit ⟨path, edit⟩))
  | .error error => .error (.badPath error)

/-- The edit of the node at a path with a text, both from the rest of a line. -/
def editWith (rest : List Char) (make : String → Edit) : Except LineFault Line :=
  let (path, text) := splitWord rest
  editAt path (make (String.ofList text))

/-- Like `editWith` for a text that must not be empty. -/
def editWithText (rest : List Char) (usage : String) (make : String → Edit) :
    Except LineFault Line :=
  if (splitWord rest).2.isEmpty then .error (.incomplete usage) else editWith rest make

/-- What the first word of a line and the rest ask for. -/
def ask (word : String) (rest : List Char) : Except LineFault Line :=
  match word with
  | "" | "show" => .ok .display
  | "help" | "?" => .ok .help
  | "quit" | "exit" => .ok .quit
  | "undo" => .ok (.send .undo)
  | "redo" => .ok (.send .redo)
  | "choose" =>
    if rest.isEmpty then .error (.unknownCommand "choose")
    else .ok (.send (.choose (String.ofList rest)))
  | "op" => editWithText rest "op PATH NAME" .selectOperator
  | "variant" => editWithText rest "variant PATH SELECTOR" .selectVariant
  | "set" => editWith rest .setInput
  | "add" => editAt rest .listAdd
  | "rm" => editAt rest .listRemove
  | "toggle" => editAt rest .toggleOpen
  | other => .error (.unknownCommand other)

/-- Read a line. -/
def read (line : String) : Except LineFault Line :=
  let (word, rest) := splitWord line.toList
  ask (String.ofList word) rest

/-- What can be typed. -/
def helpText : String :=
  "show                   formula, highlighting and outline\n" ++
  "  choose NAME            restart from another top-level operator\n" ++
  "  op PATH NAME           switch the operator at PATH\n" ++
  "  variant PATH SELECTOR  pick a union variant by name or index\n" ++
  "  set PATH VALUE         set an atom's text\n" ++
  "  add PATH               insert a list element (at a list or after an element)\n" ++
  "  rm PATH                remove a list element\n" ++
  "  toggle PATH            fold or unfold a node\n" ++
  "  undo | redo\n" ++
  "  quit\n" ++
  "\n" ++
  "  PATH is dotted child indexes, e.g. 0.1.2; '.' is the root."

end Line

end FormulaEdit
