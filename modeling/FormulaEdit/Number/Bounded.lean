/-!
# Integers in a machine range

Indices and integer atoms are written in decimal and have to fit a fixed range. The readers below
take the whole text: an optional sign, then one or more ASCII digits. They answer `none` when the
form is wrong or the value does not fit.
-/

namespace FormulaEdit.Number

/-- The largest index, `2 ^ 64 - 1`. -/
def maxIndex : Nat := Nat.pow 2 64 - 1

/-- The value of one ASCII digit. -/
def digitValue (c : Char) : Nat := c.toNat - '0'.toNat

/-- The value of a string of ASCII digits, read in base ten. -/
def digitsValue (cs : List Char) : Nat :=
  cs.foldl (fun n c ↦ 10 * n + digitValue c) 0

/-- The value of a nonempty string that holds ASCII digits only. -/
def readDigits? (cs : List Char) : Option Nat :=
  if !cs.isEmpty && cs.all Char.isDigit then some (digitsValue cs) else none

/-- A natural number of at most `limit`, with an optional plus sign. -/
def readNat? (limit : Nat) (cs : List Char) : Option Nat :=
  let body :=
    match cs with
    | '+' :: rest => rest
    | _ => cs
  (readDigits? body).filter (· ≤ limit)

/-- An index, that is a natural number below `2 ^ 64`. -/
def readIndex? (cs : List Char) : Option Nat := readNat? maxIndex cs

/-- An integer between `-2 ^ 63` and `2 ^ 63 - 1`, with an optional sign. -/
def readInt? (cs : List Char) : Option Int :=
  match cs with
  | '-' :: rest => ((readDigits? rest).filter (· ≤ Nat.pow 2 63)).map fun n ↦ -(n : Int)
  | _ => (readNat? (Nat.pow 2 63 - 1) cs).map fun n ↦ (n : Int)

end FormulaEdit.Number
