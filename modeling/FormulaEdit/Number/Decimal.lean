import FormulaEdit.Number.Bounded

/-!
# Decimal numerals

A decimal numeral is an optional sign, digits with an optional point among or beside them, and an
optional exponent. It stands for `digits * 10 ^ scale` exactly. `Decimal.isFinite` says whether the
binary64 number nearest to it is finite: everything below `2 ^ 1024 - 2 ^ 970`, the midpoint between
the largest finite number and the next power of two, rounds to a finite number, and the midpoint
itself does not.
-/

namespace FormulaEdit.Number

/-- The exact value `(-1) ^ neg * digits * 10 ^ scale` of a numeral. -/
structure Decimal where
  /-- Whether the numeral carries a minus sign. -/
  neg : Bool
  /-- The digits of the numeral, the point left out. -/
  digits : Nat
  /-- The power of ten the digits are multiplied by. -/
  scale : Int
  deriving DecidableEq, Repr

/-- The sign of a numeral and what follows it. -/
def readSign : List Char → Bool × List Char
  | '-' :: rest => (true, rest)
  | '+' :: rest => (false, rest)
  | cs => (false, cs)

/-- The exponent part of a numeral, which is absent or takes up the whole rest of it. -/
def readExponent? : List Char → Option Int
  | [] => some 0
  | c :: rest =>
    if c = 'e' || c = 'E' then
      let (neg, body) := readSign rest
      (readDigits? body).map fun n ↦ if neg then -(n : Int) else (n : Int)
    else none

/-- Read a whole text as a numeral. At least one digit stands before or after the point. -/
def Decimal.read? (cs : List Char) : Option Decimal :=
  let (neg, body) := readSign cs
  let whole := body.takeWhile Char.isDigit
  let rest := body.dropWhile Char.isDigit
  let (fraction, rest) :=
    match rest with
    | '.' :: tail => (tail.takeWhile Char.isDigit, tail.dropWhile Char.isDigit)
    | _ => ([], rest)
  if whole.isEmpty && fraction.isEmpty then none
  else
    (readExponent? rest).map fun e ↦
      { neg, digits := digitsValue (whole ++ fraction), scale := e - fraction.length }

/-- The least real number that does not round to a finite binary64 number. -/
def overflowBound : Nat := Nat.pow 2 1024 - Nat.pow 2 970

/-- Whether the numeral is below `overflowBound` in size. The count of digits settles all but the
values near the bound, so that a huge exponent costs nothing. -/
def Decimal.isFinite (d : Decimal) : Bool :=
  if d.digits = 0 then true
  else
    let magnitude : Int := (Nat.toDigits 10 d.digits).length + d.scale
    if magnitude ≤ 308 then true
    else if 310 ≤ magnitude then false
    else if 0 ≤ d.scale then d.digits * Nat.pow 10 d.scale.toNat < overflowBound
    else d.digits < overflowBound * Nat.pow 10 (-d.scale).toNat

/-- Whether a text is a decimal numeral of finite size. -/
def isFiniteNumeral (cs : List Char) : Bool :=
  match Decimal.read? cs with
  | some d => d.isFinite
  | none => false

end FormulaEdit.Number
