import FormulaEdit.Grammar.Error
import FormulaEdit.Grammar.Resolve
import FormulaEdit.Json.Reader
import FormulaEdit.Json.Record

/-!
# Loading a grammar

A description is an array of entries, or an object that holds one under `operators`. Each entry
either becomes an operator of the grammar or is reported by one error. Loading goes in three phases.

* Each entry is decoded and its names are checked; an operator of a name already taken is left out.
* The kind expressions are read; an operator with an unreadable one is left out.
* The rest is settled. All names are resolved, and each operator must have a default depth. The
  first operator that fails is left out and all is done again, because a category that it stood for
  goes to the next operator that declares it.
-/

namespace FormulaEdit.Grammar

open Text

/-! ## Entries -/

/-- An argument as an entry declares it. -/
def argumentRecord : Json.Record (Argument String) where
  title := "struct RawArgument"
  fields :=
    [ { name := "name", required := true, trailing := false
        store := fun value arg ↦ (Json.string value).map fun name ↦ { arg with name } },
      { name := "kind", required := true, trailing := false
        store := fun value arg ↦ (Json.string value).map fun kind ↦ { arg with kind } },
      { name := "default", required := false, trailing := true
        store := fun value arg ↦
          (Json.optional Json.string value).map fun initial ↦ { arg with initial } } ]

/-- An operator as an entry declares it. -/
def operatorRecord : Json.Record Declaration where
  title := "struct RawOperator"
  fields :=
    [ { name := "name", required := true, trailing := false
        store := fun value op ↦ (Json.string value).map fun name ↦ { op with name } },
      { name := "returns", required := false, trailing := true
        store := fun value op ↦
          (Json.optional Json.string value).map fun returns ↦ { op with returns } },
      { name := "args", required := false, trailing := true
        store := fun value op ↦
          (Json.list (argumentRecord.decode ⟨"", "", none⟩) value).map
            fun args ↦ { op with args } } ]

/-- The first argument without a name, or with the name of an earlier one. -/
def firstBadArgument (seen : List String) : List (Argument String) → Option (Argument String)
  | [] => none
  | arg :: args =>
    if arg.name.isEmpty || seen.contains arg.name then some arg
    else firstBadArgument (arg.name :: seen) args

/-- The operator an entry declares. -/
def declare (entry : Json) : Except EntryFault Declaration :=
  match operatorRecord.decode ⟨"", none, []⟩ entry with
  | .error message => .error (.undecodable message)
  | .ok op =>
    if (trim op.name.toList).isEmpty then .error .blankName
    else
      match firstBadArgument [] op.args with
      | some arg =>
        if arg.name.isEmpty then .error (.unnamedArgument op.name)
        else .error (.repeatedArgument op.name arg.name)
      | none => .ok op

/-- The operators that entries declare, from the given position on, apart from those whose names are
`taken`. -/
def declareAll (taken : List String) (index : Nat) :
    List Json → List GrammarError × List Declaration
  | [] => ([], [])
  | entry :: entries =>
    match declare entry with
    | .error fault =>
      let (errors, ops) := declareAll taken (index + 1) entries
      (.malformedOperator index fault :: errors, ops)
    | .ok op =>
      if taken.contains op.name then
        let (errors, ops) := declareAll taken (index + 1) entries
        (.duplicateOperator op.name :: errors, ops)
      else
        let (errors, ops) := declareAll (op.name :: taken) (index + 1) entries
        (errors, op :: ops)

/-! ## Kind expressions -/

/-- Read the kinds of arguments in order. -/
def draftArgs (operator : String) :
    List (Argument String) → Except GrammarError (List (Argument KindExpr))
  | [] => .ok []
  | arg :: args =>
    match KindExpr.read arg.kind with
    | .error fault => .error (.invalidKind operator arg.name arg.kind fault)
    | .ok kind =>
      match draftArgs operator args with
      | .error error => .error error
      | .ok rest => .ok ({ arg with kind } :: rest)

/-- Read the kinds of declared operators, leaving out those with an unreadable one. -/
def draftAll : List Declaration → List GrammarError × List Draft
  | [] => ([], [])
  | op :: ops =>
    let (errors, drafts) := draftAll ops
    match draftArgs op.name op.args with
    | .error error => (error :: errors, drafts)
    | .ok args => (errors, { op with args } :: drafts)

/-! ## Settling -/

/-- The names and categories that drafts declare. -/
def declaredNames (drafts : List Draft) : List String :=
  drafts.flatMap fun op ↦ op.name :: op.returns.toList

/-- An operator that has to go, and the error that says why. -/
structure Offence where
  /-- The name of the operator. -/
  operator : String
  /-- What is wrong with it. -/
  error : GrammarError
  deriving DecidableEq, Repr

/-- The grammar of the live drafts, or the first operator that keeps them from being one. A name
that stands for nothing is unknown, or gone if it was declared at the start. -/
def assemble (declared : List String) (live : List Draft) : Except Offence Grammar :=
  match resolveDrafts live live with
  | .error ⟨operator, argument, word⟩ =>
    if declared.contains word then .error ⟨operator, .missingOperator operator argument word⟩
    else .error ⟨operator, .unknownKind operator argument word⟩
  | .ok operators =>
    let g : Grammar := ⟨operators⟩
    match g.firstEndless operators [] with
    | some (operator, fault) => .error ⟨operator, .uninstantiable operator fault⟩
    | none => .ok g

/-- Leave out one offending operator after another, at most as many as `fuel`. -/
def settleWithin (declared : List String) : Nat → List Draft → List GrammarError × Grammar
  | 0, _ => ([], .empty)
  | fuel + 1, live =>
    match assemble declared live with
    | .ok g => ([], g)
    | .error offence =>
      let (errors, g) := settleWithin declared fuel (live.filter (·.name ≠ offence.operator))
      (offence.error :: errors, g)

/-- The grammar of what is left of the drafts once no operator offends. -/
def settle (drafts : List Draft) : List GrammarError × Grammar :=
  settleWithin (declaredNames drafts) (drafts.length + 1) drafts

/-! ## Descriptions -/

/-- The entries of a description. -/
def entries : Json → Except DescriptionFault (List Json)
  | .arr items => .ok items
  | .obj members =>
    match members.lookup "operators" with
    | some (.arr items) => .ok items
    | some _ => .error .entriesNotArray
    | none => .error .entriesMissing
  | _ => .error .notContainer

/-- The grammar of a list of entries, and the errors of those left out. -/
def ofEntries (entries : List Json) : List GrammarError × Grammar :=
  let (malformed, declarations) := declareAll [] 0 entries
  let (unreadable, drafts) := draftAll declarations
  let (unsettled, g) := settle drafts
  (malformed ++ unreadable ++ unsettled, g)

/-- The grammar of a description, and the errors found in it. -/
def ofJson (description : Json) : List GrammarError × Grammar :=
  match entries description with
  | .ok items => ofEntries items
  | .error fault => ([.invalidDescription fault], .empty)

/-- The grammar of the text of a description, and the errors found in it. -/
def read (source : String) : List GrammarError × Grammar :=
  match Json.read source with
  | .ok description => ofJson description
  | .error fault => ([.invalidDescription (.unreadable (fault.message source))], .empty)

end FormulaEdit.Grammar
