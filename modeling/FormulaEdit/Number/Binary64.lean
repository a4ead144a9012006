/-!
# Finite binary64 numbers

A finite binary64 number is a sign, a mantissa below `2 ^ 53` and a power of two. Products and
quotients are rounded to nearest, ties to the even mantissa; a result too large for the format is
`none`. All arithmetic is on natural numbers, so a number has a decidable equality and an exact
value.

`Binary64.shortest` gives the fewest decimal digits that read back as the number, and of those the
nearest.
-/

namespace FormulaEdit.Number

/-- The finite number `(-1) ^ neg * mant * 2 ^ exp`. -/
structure Binary64 where
  /-- Whether the sign bit is set; zero has both signs. -/
  neg : Bool
  /-- The mantissa, below `2 ^ 53`. -/
  mant : Nat
  /-- The power of two the mantissa is multiplied by, at least `-1074`. -/
  exp : Int
  deriving DecidableEq, Repr

/-- The quotient rounded to the nearest integer, a half to the even one. -/
def roundQuotient (num den : Nat) : Nat :=
  let q := num / den
  let r := num % den
  if 2 * r < den then q else if den < 2 * r then q + 1 else q + q % 2

/-- The quotient of a fraction by `2 ^ e`, as a fraction. -/
def divPow (num den : Nat) (e : Int) : Nat × Nat :=
  if 0 ≤ e then (num, den * Nat.pow 2 e.toNat) else (num * Nat.pow 2 (-e).toNat, den)

namespace Binary64

/-- The number nearest to a fraction, if it is finite. -/
def ofRatio? (neg : Bool) (num den : Nat) : Option Binary64 :=
  if num = 0 then some ⟨neg, 0, -1074⟩
  else
    let top : Int := (Nat.log2 num : Int) - Nat.log2 den - 52
    let (n, d) := divPow num den top
    let exp := max (if n < d * Nat.pow 2 52 then top - 1 else top) (-1074)
    let (n, d) := divPow num den exp
    let mant := roundQuotient n d
    let (mant, exp) := if mant = Nat.pow 2 53 then (Nat.pow 2 52, exp + 1) else (mant, exp)
    if 971 < exp then none else some ⟨neg, mant, exp⟩

/-- The size of a number as a fraction. -/
def ratio (x : Binary64) : Nat × Nat :=
  if 0 ≤ x.exp then (x.mant * Nat.pow 2 x.exp.toNat, 1) else (x.mant, Nat.pow 2 (-x.exp).toNat)

/-- Whether the number is a zero of either sign. -/
def isZero (x : Binary64) : Bool := x.mant == 0

/-- The number nearest to `x * 10 ^ n`, the power itself rounded first. -/
def scaleUp? (x : Binary64) (n : Nat) : Option Binary64 := do
  let p ← ofRatio? false (Nat.pow 10 n) 1
  let (a, b) := x.ratio
  let (c, d) := p.ratio
  ofRatio? x.neg (a * c) (b * d)

/-- The number nearest to `x / 10 ^ n`, the power itself rounded first. -/
def scaleDown? (x : Binary64) (n : Nat) : Option Binary64 := do
  let p ← ofRatio? false (Nat.pow 10 n) 1
  let (a, b) := x.ratio
  let (c, d) := p.ratio
  ofRatio? x.neg (a * d) (b * c)

/-! ## Shortest decimal digits -/

/-- Of the two neighbours of `num / den` among the multiples of `10 ^ k`, the one that lies in the
rounding interval `[low / den, high / den]`, if any; its ends count when `closed`. -/
def gridHit? (low num high den : Nat) (closed : Bool) (k : Int) : Option Nat :=
  let grid := if 0 ≤ k then den * Nat.pow 10 k.toNat else den
  let scale := if 0 ≤ k then 1 else Nat.pow 10 (-k).toNat
  let inside (q : Nat) : Bool :=
    if closed then low * scale ≤ q * grid && q * grid ≤ high * scale
    else low * scale < q * grid && q * grid < high * scale
  let q := num * scale / grid
  let below := num * scale - q * grid
  let above := (q + 1) * grid - num * scale
  match inside q, inside (q + 1) with
  | true, true => some (if below < above || (below == above && q % 2 == 0) then q else q + 1)
  | true, false => some q
  | false, true => some (q + 1)
  | false, false => none

/-- The digits without trailing zeros, and the power of ten that takes them up. -/
def dropZeros : Nat → Nat → Int → Nat × Int
  | 0, q, k => (q, k)
  | fuel + 1, q, k => if q % 10 = 0 && q ≠ 0 then dropZeros fuel (q / 10) (k + 1) else (q, k)

/-- The fewest decimal digits that read back as a nonzero number, with the power of ten they are
multiplied by. -/
def shortest (x : Binary64) : Nat × Int :=
  let (shift, den) :=
    if 2 ≤ x.exp then (Nat.pow 2 (x.exp - 2).toNat, 1) else (1, Nat.pow 2 (2 - x.exp).toNat)
  let num := 4 * x.mant * shift
  let low :=
    (if x.mant = Nat.pow 2 52 && -1074 < x.exp then 4 * x.mant - 1 else 4 * x.mant - 2) * shift
  let high := (4 * x.mant + 2) * shift
  let point : Int := ((Nat.toDigits 10 (num * Nat.pow 10 400 / den)).length : Int) - 400
  let hit := (List.range 17).findSome? fun (n : Nat) ↦
    let k := point - (n + 1)
    (gridHit? low num high den (x.mant % 2 == 0) k).map fun q ↦ dropZeros 20 q k
  hit.getD (x.mant, 0)

/-- The text of a number: positional from `10 ^ -5` up to `10 ^ 16`, always with a fraction, and
with a signed exponent beyond. -/
def text (x : Binary64) : String :=
  let sign := if x.neg then "-" else ""
  if x.isZero then sign ++ "0.0"
  else
    let (q, k) := x.shortest
    let ds := Nat.toDigits 10 q
    let lead : Int := (ds.length : Int) - 1 + k
    let body :=
      if lead < -5 || 15 < lead then
        let fraction := if ds.length = 1 then [] else '.' :: ds.drop 1
        let mark := if lead < 0 then "e-" else "e+"
        String.ofList (ds.take 1 ++ fraction) ++ mark ++ toString lead.natAbs
      else if lead < 0 then
        "0." ++ String.ofList (List.replicate (-lead - 1).toNat '0' ++ ds)
      else if (ds.length : Int) - 1 ≤ lead then
        String.ofList (ds ++ List.replicate (lead + 1 - ds.length).toNat '0') ++ ".0"
      else
        String.ofList (ds.take (lead + 1).toNat ++ '.' :: ds.drop (lead + 1).toNat)
    sign ++ body

end Binary64

end FormulaEdit.Number
