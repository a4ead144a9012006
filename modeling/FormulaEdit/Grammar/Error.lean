import FormulaEdit.Grammar.Depth

/-!
# Grammar errors

Loading a grammar never fails as a whole. What is wrong with a description is reported as a list of
errors, one for each entry that is left out.
-/

namespace FormulaEdit

/-- Why a description has no entries to load. -/
inductive DescriptionFault where
  | unreadable (message : String)
  | entriesNotArray
  | entriesMissing
  | notContainer
  deriving DecidableEq, Repr

/-- The wording of a fault. -/
def DescriptionFault.message : DescriptionFault → String
  | .unreadable message => message
  | .entriesNotArray => "'operators' must be an array"
  | .entriesMissing => "missing 'operators' array"
  | .notContainer => "expected an object or an array"

/-- Why an entry declares no operator. -/
inductive EntryFault where
  | undecodable (message : String)
  | blankName
  | unnamedArgument (operator : String)
  | repeatedArgument (operator argument : String)
  deriving DecidableEq, Repr

/-- The wording of a fault. -/
def EntryFault.message : EntryFault → String
  | .undecodable message => message
  | .blankName => "empty operator name"
  | .unnamedArgument operator => s!"operator '{operator}' has an unnamed argument"
  | .repeatedArgument operator argument => s!"operator '{operator}' repeats argument '{argument}'"

/-- What is wrong with a description or one of its entries. -/
inductive GrammarError where
  | invalidDescription (fault : DescriptionFault)
  | malformedOperator (index : Nat) (fault : EntryFault)
  | duplicateOperator (name : String)
  | invalidKind (operator argument kind : String) (fault : KindExpr.Fault)
  | unknownKind (operator argument name : String)
  | missingOperator (operator argument name : String)
  | uninstantiable (operator : String) (fault : DepthFault)
  deriving DecidableEq, Repr

namespace GrammarError

/-- The operator an error is about, where the description names it. -/
def operator? : GrammarError → Option String
  | .invalidDescription _ | .malformedOperator _ _ => none
  | .duplicateOperator name => some name
  | .invalidKind operator _ _ _ => some operator
  | .unknownKind operator _ _ => some operator
  | .missingOperator operator _ _ => some operator
  | .uninstantiable operator _ => some operator

/-- The wording of an error. -/
def message : GrammarError → String
  | .invalidDescription fault => "Invalid grammar description: " ++ fault.message
  | .malformedOperator index fault => s!"Operator #{index} is malformed: " ++ fault.message
  | .duplicateOperator name => s!"Operator '{name}' is declared more than once"
  | .invalidKind operator argument kind fault =>
    s!"Operator '{operator}', argument '{argument}': invalid kind '{kind}': " ++ fault.message
  | .unknownKind operator argument name =>
    s!"Operator '{operator}', argument '{argument}': unknown kind '{name}'"
  | .missingOperator operator argument name =>
    s!"Operator '{operator}', argument '{argument}': '{name}' is no longer available"
  | .uninstantiable operator fault =>
    s!"Operator '{operator}' cannot be instantiated: " ++ fault.message

end GrammarError

end FormulaEdit
