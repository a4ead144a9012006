import FormulaEdit.Number.Bounded

/-!
# The command line

The first word names a command, and options and file names follow in any order. An option has a long
name and maybe a letter; its value follows in the same word or in the next one. The words are taken
one after the other, and the first that asks for help or is wrong decides.
-/

namespace FormulaEdit

/-- What can be asked for on the command line. -/
inductive Command where
  /-- Set up a project. -/
  | init (grammar : String) (baseUrl : Option String) (force : Bool)
  /-- Report the operators of a grammar and its problems. -/
  | check (grammar : Option String) (strict : Bool)
  /-- Print a new formula. -/
  | render (grammar operator : Option String) (pretty outline : Bool)
  /-- Edit a formula line by line. -/
  | edit (grammar operator baseUrl : Option String) (tickMillis : Option Nat)
  deriving DecidableEq, Repr

/-- Why there is no command to run. -/
inductive Stop where
  /-- The words are wrong. -/
  | misuse
  /-- Help or the version was asked for. -/
  | information
  deriving DecidableEq, Repr

/-- The exit code. -/
def Stop.code : Stop → Nat
  | .misuse => 2
  | .information => 0

namespace Arguments

/-- An option of a command. -/
structure Switch where
  /-- The name after two dashes. -/
  long : String
  /-- The letter after one dash. -/
  letter : Option Char
  /-- Whether a value belongs to it. -/
  takesValue : Bool
  /-- Whether a value will do. -/
  accepts : String → Bool

/-- A switch without a value. -/
def flag (long : String) (letter : Option Char) : Switch := ⟨long, letter, false, fun _ ↦ true⟩

/-- A switch with a text as its value. -/
def option (long : String) (letter : Option Char) : Switch := ⟨long, letter, true, fun _ ↦ true⟩

/-- A switch with a number as its value. -/
def count (long : String) : Switch :=
  ⟨long, none, true, fun value ↦ (Number.readIndex? value.toList).isSome⟩

/-- What may follow the name of a command. -/
structure Usage where
  /-- The switches of the command. -/
  switches : List Switch
  /-- The number of words that are not switches. -/
  words : Nat

/-- What followed the name of a command. -/
structure Given where
  /-- The switches with their values. -/
  switches : List (String × String)
  /-- The other words. -/
  words : List String

/-- Note a switch, which may be given once. -/
def Given.addSwitch (given : Given) (switch : Switch) (value : String) : Except Stop Given :=
  if (given.switches.lookup switch.long).isSome || !switch.accepts value then .error .misuse
  else .ok { given with switches := (switch.long, value) :: given.switches }

/-- Note a word that is not a switch. -/
def Given.addWord (usage : Usage) (given : Given) (word : String) : Except Stop Given :=
  if given.words.length < usage.words then .ok { given with words := given.words ++ [word] }
  else .error .misuse

/-- Whether a word is read as switches. -/
def isSwitch (word : String) : Bool :=
  match word.toList with
  | '-' :: _ :: _ => true
  | _ => false

/-- The switch of a long name, with the value that stands in the same word. A switch that still
needs its value comes back. -/
def takeLong (usage : Usage) (given : Given) (body : List Char) :
    Except Stop (Given × Option Switch) :=
  let name := String.ofList (body.takeWhile (· != '='))
  match usage.switches.find? (·.long = name), body.dropWhile (· != '=') with
  | none, attached => .error (if name = "help" && attached.isEmpty then .information else .misuse)
  | some switch, [] =>
    if switch.takesValue then .ok (given, some switch)
    else (given.addSwitch switch "").map (·, none)
  | some switch, _ :: value =>
    if switch.takesValue then (given.addSwitch switch (String.ofList value)).map (·, none)
    else .error .misuse

/-- The switches of letters. The last one may have its value in the same word; if it still needs its
value it comes back. -/
def takeLetters (usage : Usage) : Given → List Char → Except Stop (Given × Option Switch)
  | given, [] => .ok (given, none)
  | given, letter :: rest =>
    match usage.switches.find? (·.letter = some letter) with
    | none => .error (if letter = 'h' then .information else .misuse)
    | some switch =>
      if switch.takesValue then
        match rest with
        | [] => .ok (given, some switch)
        | '=' :: value => (given.addSwitch switch (String.ofList value)).map (·, none)
        | value => (given.addSwitch switch (String.ofList value)).map (·, none)
      else
        match given.addSwitch switch "" with
        | .ok given => takeLetters usage given rest
        | .error stop => .error stop

/-- The switches of a word. -/
def takeSwitches (usage : Usage) (given : Given) (word : String) :
    Except Stop (Given × Option Switch) :=
  match word.toList with
  | '-' :: '-' :: body => takeLong usage given body
  | _ :: letters => takeLetters usage given letters
  | [] => .error .misuse

/-- Take the words after the name of a command. `pending` is a switch that needs its value, and
after two dashes alone no word is a switch. -/
def take (usage : Usage) : Given → (pending : Option Switch) → List String → Except Stop Given
  | given, none, [] => .ok given
  | _, some _, [] => .error .misuse
  | given, some switch, word :: rest =>
    if isSwitch word then .error .misuse
    else
      match given.addSwitch switch word with
      | .ok given => take usage given none rest
      | .error stop => .error stop
  | given, none, word :: rest =>
    if word = "--" then rest.foldlM (Given.addWord usage) given
    else if isSwitch word then
      match takeSwitches usage given word with
      | .ok (given, pending) => take usage given pending rest
      | .error stop => .error stop
    else
      match given.addWord usage word with
      | .ok given => take usage given none rest
      | .error stop => .error stop

/-- The value of a switch. -/
def Given.value? (given : Given) (long : String) : Option String := given.switches.lookup long

/-- Whether a switch is given. -/
def Given.has (given : Given) (long : String) : Bool := (given.value? long).isSome

/-- The commands: what may follow each, and what it stands for. -/
def commands : List (String × Usage × (Given → Command)) := [
  ("init",
    ⟨[option "grammar" (some 'g'), option "base-url" (some 'b'), flag "force" (some 'f')], 0⟩,
    fun given ↦ .init ((given.value? "grammar").getD "grammar.json") (given.value? "base-url")
      (given.has "force")),
  ("check", ⟨[flag "strict" none], 1⟩, fun given ↦ .check given.words.head? (given.has "strict")),
  ("render",
    ⟨[option "operator" (some 'o'), flag "pretty" (some 'p'), flag "outline" none], 1⟩,
    fun given ↦ .render given.words.head? (given.value? "operator") (given.has "pretty")
      (given.has "outline")),
  ("edit",
    ⟨[option "operator" (some 'o'), option "base-url" none, count "tick-millis"], 1⟩,
    fun given ↦ .edit given.words.head? (given.value? "operator") (given.value? "base-url")
      ((given.value? "tick-millis").bind fun text ↦ Number.readIndex? text.toList))]

/-- What the first word asks for when it is a switch. -/
def leadingSwitch (word : String) : Stop :=
  match word.toList with
  | '-' :: 'h' :: _ | '-' :: 'V' :: _ => .information
  | _ => if word = "--help" || word = "--version" then .information else .misuse

/-- What a request for help on a topic comes to. -/
def helpOn (topics : List String) : Stop :=
  match topics with
  | [] => .information
  | [topic] =>
    if topic = "help" || (commands.lookup topic).isSome then .information else .misuse
  | _ => .misuse

end Arguments

open Arguments

/-- Read the words of a command line. -/
def Command.read : List String → Except Stop Command
  | [] => .error .misuse
  | word :: rest =>
    if isSwitch word then .error (leadingSwitch word)
    else if word = "help" then .error (helpOn rest)
    else
      match Arguments.commands.lookup word with
      | none => .error .misuse
      | some (usage, make) => (take usage ⟨[], []⟩ none rest).map make

end FormulaEdit
