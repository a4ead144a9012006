import FormulaEdit.Atom.Basic

/-!
# Kinds

The kind of a node says what may stand there: an atom, one operator, one of several alternatives or
a list. An operator kind carries only the operator's name. Its arguments are kept by the grammar's
catalog, so that grammars may be recursive while kinds stay finite.
-/

namespace FormulaEdit

/-- What may stand at a node of a formula. -/
inductive Kind where
  | atom (type : Atom)
  | operator (name : String)
  | union (variants : List Kind)
  | list (element : Kind)
  deriving Repr, Inhabited

namespace Kind

mutual

/-- Equality of kinds is decidable. -/
def decEq : (a b : Kind) → Decidable (a = b)
  | .atom a, .atom b => decidable_of_iff (a = b) (by simp)
  | .operator a, .operator b => decidable_of_iff (a = b) (by simp)
  | .union as, .union bs =>
    have := decEqs as bs
    decidable_of_iff (as = bs) (by simp)
  | .list a, .list b =>
    have := decEq a b
    decidable_of_iff (a = b) (by simp)
  | .atom _, .operator _ | .atom _, .union _ | .atom _, .list _ => isFalse (by simp)
  | .operator _, .atom _ | .operator _, .union _ | .operator _, .list _ => isFalse (by simp)
  | .union _, .atom _ | .union _, .operator _ | .union _, .list _ => isFalse (by simp)
  | .list _, .atom _ | .list _, .operator _ | .list _, .union _ => isFalse (by simp)

/-- Equality of lists of kinds is decidable. -/
def decEqs : (as bs : List Kind) → Decidable (as = bs)
  | [], [] => isTrue rfl
  | a :: as, b :: bs =>
    have := decEq a b
    have := decEqs as bs
    decidable_of_iff (a = b ∧ as = bs) (by simp)
  | [], _ :: _ | _ :: _, [] => isFalse (by simp)

end

instance : DecidableEq Kind := decEq

/-- The written form of a kind, `number`, `List[x]` or `Union[x, y]`. -/
def text : Kind → String
  | .atom type => type.name
  | .operator name => name
  | .union variants => "Union[" ++ ", ".intercalate (texts variants) ++ "]"
  | .list element => "List[" ++ element.text ++ "]"
where
  /-- The written forms of several kinds. -/
  texts : List Kind → List String
    | [] => []
    | k :: ks => k.text :: texts ks

/-- The name of a node of this kind: what it is, without what it is made of. -/
def label : Kind → String
  | .atom type => type.name
  | .operator name => name
  | .union _ => "Union"
  | .list _ => "List"

/-- Whether a node of this kind has any number of children. -/
def isVariadic : Kind → Bool
  | .list _ => true
  | _ => false

end Kind

end FormulaEdit
