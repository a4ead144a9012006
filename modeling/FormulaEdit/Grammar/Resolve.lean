import FormulaEdit.Grammar.Basic

/-!
# Resolving names

The names in kind expressions are resolved against the drafts that are still alive. A name stands
for an atom type if it spells one, else for the first operator that declares it as its return
category, else for the operator of that name. The first name that stands for nothing is reported.
-/

namespace FormulaEdit

/-- What a name stands for among the live drafts. -/
def binding? (live : List Draft) (name : String) : Option Kind :=
  match Atom.ofName? name with
  | some type => some (.atom type)
  | none =>
    match live.find? (·.returns = some name) with
    | some first => some (.operator first.name)
    | none => if live.any (·.name = name) then some (.operator name) else none

namespace KindExpr

mutual

/-- The kind of an expression, or its first name that stands for nothing. -/
def resolve (binding : String → Option Kind) : KindExpr → Except String Kind
  | .name word =>
    match binding word with
    | some kind => .ok kind
    | none => .error word
  | .list element =>
    match resolve binding element with
    | .ok kind => .ok (.list kind)
    | .error word => .error word
  | .union variants =>
    match resolveAll binding variants with
    | .ok kinds => .ok (.union kinds)
    | .error word => .error word

/-- The kinds of several expressions, or their first name that stands for nothing. -/
def resolveAll (binding : String → Option Kind) : List KindExpr → Except String (List Kind)
  | [] => .ok []
  | e :: es =>
    match resolve binding e with
    | .error word => .error word
    | .ok kind =>
      match resolveAll binding es with
      | .error word => .error word
      | .ok kinds => .ok (kind :: kinds)

end

end KindExpr

/-- A name that stands for nothing, and the argument it occurs in. -/
structure Unresolved where
  /-- The operator. -/
  operator : String
  /-- The argument of the operator. -/
  argument : String
  /-- The name. -/
  word : String
  deriving DecidableEq, Repr

/-- Resolve the arguments of an operator in order. -/
def resolveArgs (live : List Draft) (operator : String) :
    List (Argument KindExpr) → Except Unresolved (List (Argument Kind))
  | [] => .ok []
  | arg :: args =>
    match arg.kind.resolve (binding? live) with
    | .error word => .error ⟨operator, arg.name, word⟩
    | .ok kind =>
      match resolveArgs live operator args with
      | .error unresolved => .error unresolved
      | .ok rest => .ok ({ arg with kind } :: rest)

/-- Resolve drafts in order against all that are live. -/
def resolveDrafts (live : List Draft) : List Draft → Except Unresolved (List (Operator Kind))
  | [] => .ok []
  | op :: ops =>
    match resolveArgs live op.name op.args with
    | .error unresolved => .error unresolved
    | .ok args =>
      match resolveDrafts live ops with
      | .error unresolved => .error unresolved
      | .ok rest => .ok ({ op with args } :: rest)

end FormulaEdit
