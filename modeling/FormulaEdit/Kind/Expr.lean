import FormulaEdit.Kind.Basic

/-!
# Kind expressions

A grammar description writes kinds as expressions such as `number`, `List[Series]` or `Union[int,
Series]`. An expression is a tree of names that are not resolved yet: whether `Series` is an atom, a
category of operators or one operator is decided later, against the whole description.

The expressions are

    kind := name | LIST '[' kind ']' | UNION '[' kind (',' kind)* ']'

over tokens that are the three marks and maximal runs of other characters, blanks apart. `LIST` and
`UNION` are names that spell these words in any mix of cases. `KindExpr.read` goes over the placed
tokens once, with the constructors still open on a stack. It stops at the first token that fits no
rule and says where it stands, in bytes from the start of the text.
-/

namespace FormulaEdit

open Text

/-- A kind whose names are not resolved. -/
inductive KindExpr where
  | name (word : String)
  | list (element : KindExpr)
  | union (variants : List KindExpr)
  deriving Repr, Inhabited

namespace KindExpr

mutual

/-- Equality of expressions is decidable. -/
def decEq : (a b : KindExpr) → Decidable (a = b)
  | .name a, .name b => decidable_of_iff (a = b) (by simp)
  | .list a, .list b =>
    have := decEq a b
    decidable_of_iff (a = b) (by simp)
  | .union as, .union bs =>
    have := decEqs as bs
    decidable_of_iff (as = bs) (by simp)
  | .name _, .list _ | .name _, .union _ | .list _, .name _ => isFalse (by simp)
  | .list _, .union _ | .union _, .name _ | .union _, .list _ => isFalse (by simp)

/-- Equality of lists of expressions is decidable. -/
def decEqs : (as bs : List KindExpr) → Decidable (as = bs)
  | [], [] => isTrue rfl
  | a :: as, b :: bs =>
    have := decEq a b
    have := decEqs as bs
    decidable_of_iff (a = b ∧ as = bs) (by simp)
  | [], _ :: _ | _ :: _, [] => isFalse (by simp)

end

instance : DecidableEq KindExpr := decEq

/-- The names of an expression, from left to right. -/
def names : KindExpr → List String
  | .name word => [word]
  | .list element => element.names
  | .union variants => namesOf variants
where
  /-- The names of several expressions. -/
  namesOf : List KindExpr → List String
    | [] => []
    | e :: es => e.names ++ namesOf es

/-! ## Tokens -/

/-- The tokens of an expression. -/
inductive Token where
  | opening
  | closing
  | comma
  | name (word : String)
  deriving DecidableEq, Repr

/-- A token as it is shown in messages. -/
def Token.text : Token → String
  | .opening => "'['"
  | .closing => "']'"
  | .comma => "','"
  | .name s => s!"'{s}'"

/-- Whether a character may stand in a name. -/
def isNameChar (c : Char) : Bool :=
  !isBlank c && c != '[' && c != ']' && c != ','

/-- The tokens of a text, each with the byte offset it starts at. A name character goes in front of
the name that starts right after it. -/
def tokens (offset : Nat) : List Char → List (Token × Nat)
  | [] => []
  | c :: rest =>
    let later := tokens (offset + c.utf8Size) rest
    if isBlank c then later
    else if c = '[' then (.opening, offset) :: later
    else if c = ']' then (.closing, offset) :: later
    else if c = ',' then (.comma, offset) :: later
    else
      match rest.head?.any isNameChar, later with
      | true, (.name word, _) :: later =>
        (.name (String.ofList (c :: word.toList)), offset) :: later
      | _, _ => (.name (String.ofList [c]), offset) :: later

/-! ## Reading -/

/-- Why a text is no expression. -/
inductive Fault where
  | expectedName (offset : Nat)
  | expectedClosing (offset : Nat)
  | unexpected (token : Token) (offset : Nat)
  | listArity
  | unknownConstructor (word : String)
  deriving DecidableEq, Repr

/-- The wording of a fault. -/
def Fault.message : Fault → String
  | .expectedName offset => s!"expected a kind name at offset {offset}"
  | .expectedClosing offset => s!"expected ']' at offset {offset}"
  | .unexpected token offset => "unexpected " ++ token.text ++ s!" at offset {offset}"
  | .listArity => "List takes exactly one element kind"
  | .unknownConstructor word => s!"unknown kind constructor '{word}'"

/-- The offset of the next token, or the length of the text when there is none. -/
def nextOffset (size : Nat) : List (Token × Nat) → Nat
  | [] => size
  | (_, offset) :: _ => offset

/-- The expression made by a constructor from its items. -/
def construct (word : String) (items : List KindExpr) : Except Fault KindExpr :=
  match folded word, items with
  | "list", [element] => .ok (.list element)
  | "list", _ => .error .listArity
  | "union", _ => .ok (.union items)
  | _, _ => .error (.unknownConstructor word)

/-- A constructor that is still open: its word and the items read so far. -/
structure Frame where
  /-- The word before the opening bracket. -/
  word : String
  /-- The items before the current one. -/
  items : List KindExpr
  deriving Repr

mutual

/-- Read on where a kind has to start, inside the given open constructors, innermost first. -/
def readKind (size : Nat) (frames : List Frame) : List (Token × Nat) → Except Fault KindExpr
  | (.name word, _) :: (.opening, _) :: ts => readKind size (⟨word, []⟩ :: frames) ts
  | (.name word, _) :: ts => readAfter size (.name word) frames ts
  | ts => .error (.expectedName (nextOffset size ts))

/-- Read on after the kind `expr`, which is the whole expression once no constructor is open. -/
def readAfter (size : Nat) (expr : KindExpr) (frames : List Frame) :
    List (Token × Nat) → Except Fault KindExpr
  | [] =>
    match frames with
    | [] => .ok expr
    | _ :: _ => .error (.expectedClosing size)
  | (token, offset) :: ts =>
    match frames, token with
    | [], _ => .error (.unexpected token offset)
    | frame :: outer, .comma =>
      readKind size ({ frame with items := frame.items ++ [expr] } :: outer) ts
    | frame :: outer, .closing =>
      match construct frame.word (frame.items ++ [expr]) with
      | .ok whole => readAfter size whole outer ts
      | .error fault => .error fault
    | _ :: _, _ => .error (.expectedClosing offset)

end

/-- Read a whole text as an expression. -/
def read (source : String) : Except Fault KindExpr :=
  readKind source.utf8ByteSize [] (tokens 0 source.toList)

end KindExpr

end FormulaEdit
