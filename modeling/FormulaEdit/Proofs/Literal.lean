import FormulaEdit.Proofs.AtomText

/-!
# The grammar of string literals

A literal is a quote, a sequence of units and a quote. A unit is one character other than a quote
and a backslash, or a backslash with any one character after it (`Literal.Piece`). The checker goes
from the opening quote to the first quote that no backslash takes, and asks whether the text ends
there.

The same texts are found the other way round: take a quote off either end first, and go over what is
left with one bit of memory, whether the last character was a backslash that takes the next one
(`Literal.scan`). That the closing quote is not one that a backslash takes shows in the state in
which the scan ends. That it is not the opening quote again has to be asked for: there must be two
quotes to take off.
-/

namespace FormulaEdit.Literal

/-- A unit of the inside of a literal. -/
inductive Piece where
  /-- A character that stands for itself. -/
  | plain (c : Char) (quote : c ≠ '"') (backslash : c ≠ '\\')
  /-- A backslash and the character that it takes. -/
  | escape (c : Char)

def Piece.chars : Piece → List Char
  | plain c _ _ => [c]
  | escape c => ['\\', c]

/-- The inside of a literal: a sequence of units. -/
def IsInside (cs : List Char) : Prop := ∃ units : List Piece, cs = units.flatMap Piece.chars

variable {c : Char} {cs : List Char}

theorem isInside_nil : IsInside [] := ⟨[], rfl⟩

theorem not_isInside_quote : ¬IsInside ('"' :: cs) := by
  rintro ⟨_ | ⟨⟨c, hquote, _⟩ | c, units⟩, h⟩
  · cases h
  · exact hquote (List.cons.inj h).1.symm
  · exact absurd (List.cons.inj h).1 (by decide)

theorem isInside_backslash_iff :
    IsInside ('\\' :: cs) ↔ ∃ c rest, cs = c :: rest ∧ IsInside rest := by
  constructor
  · rintro ⟨_ | ⟨⟨c, _, hbackslash⟩ | c, units⟩, h⟩
    · cases h
    · exact absurd (List.cons.inj h).1.symm hbackslash
    · exact ⟨c, _, (List.cons.inj h).2, units, rfl⟩
  · rintro ⟨c, _, rfl, units, rfl⟩
    exact ⟨.escape c :: units, rfl⟩

theorem isInside_cons_iff (hquote : c ≠ '"') (hbackslash : c ≠ '\\') :
    IsInside (c :: cs) ↔ IsInside cs := by
  constructor
  · rintro ⟨_ | ⟨⟨d, _, _⟩ | d, units⟩, h⟩
    · cases h
    · exact ⟨units, (List.cons.inj h).2⟩
    · exact absurd (List.cons.inj h).1 hbackslash
  · rintro ⟨units, rfl⟩
    exact ⟨.plain c hquote hbackslash :: units, rfl⟩

/-- **The checker accepts units and a quote**, after the opening quote. -/
theorem closes_iff : closes cs = true ↔ ∃ inner, cs = inner ++ ['"'] ∧ IsInside inner := by
  constructor
  · intro h
    induction cs using unit_induction with
    | nil => cases h
    | quote cs =>
      obtain rfl := closes_quote_iff.mp h
      exact ⟨[], rfl, isInside_nil⟩
    | backslash => cases h
    | escape c cs ih =>
      obtain ⟨inner, rfl, hinner⟩ := ih h
      exact ⟨'\\' :: c :: inner, rfl, isInside_backslash_iff.mpr ⟨c, inner, rfl, hinner⟩⟩
    | plain c cs hquote hbackslash ih =>
      rw [closes_cons hquote hbackslash] at h
      obtain ⟨inner, rfl, hinner⟩ := ih h
      exact ⟨c :: inner, rfl, (isInside_cons_iff hquote hbackslash).mpr hinner⟩
  · rintro ⟨_, rfl, units, rfl⟩
    induction units with
    | nil => rfl
    | cons unit units ih =>
      obtain ⟨c, hquote, hbackslash⟩ | c := unit
      · exact (closes_cons hquote hbackslash).trans ih
      · exact closes_backslash_iff.mpr ⟨c, _, rfl, ih⟩

/-- Go over the inside of a literal. The state says whether the character before is a backslash that
takes the next one. -/
def scan : Bool → List Char → Bool
  | taken, [] => !taken
  | true, _ :: cs => scan false cs
  | false, c :: cs => c != '"' && scan (c == '\\') cs

/-- **The scan accepts sequences of units.** -/
theorem scan_iff : scan false cs = true ↔ IsInside cs := by
  induction cs using unit_induction with
  | nil => exact iff_of_true rfl isInside_nil
  | quote cs => exact iff_of_false Bool.false_ne_true not_isInside_quote
  | backslash =>
    refine iff_of_false Bool.false_ne_true fun h ↦ ?_
    obtain ⟨_, _, hcons, _⟩ := isInside_backslash_iff.mp h
    cases hcons
  | escape c cs ih =>
    rw [isInside_backslash_iff]
    constructor
    · intro h
      exact ⟨c, cs, rfl, ih.mp h⟩
    · rintro ⟨_, _, ⟨⟩, h⟩
      exact ih.mpr h
  | plain c cs hquote hbackslash ih =>
    have hstep : scan false (c :: cs) = scan false cs := by
      rw [scan, bne_iff_ne.mpr hquote, beq_eq_false_iff_ne.mpr hbackslash, Bool.true_and]
    rw [hstep, ih, isInside_cons_iff hquote hbackslash]

theorem isLiteral_iff_isInside :
    isLiteral cs = true ↔ ∃ inner, cs = '"' :: (inner ++ ['"']) ∧ IsInside inner := by
  rw [isLiteral_iff]
  simp only [closes_iff]
  constructor
  · rintro ⟨_, rfl, inner, rfl, hinner⟩
    exact ⟨inner, rfl, hinner⟩
  · rintro ⟨inner, rfl, hinner⟩
    exact ⟨_, rfl, inner, rfl, hinner⟩

theorem isLiteral_eq_of_begins {ds : List Char} (hcs : isLiteral cs = true)
    (hds : isLiteral ds = true) (h : ds <+: cs) : ds = cs := by
  obtain ⟨rest, rfl⟩ := h
  obtain ⟨xs, rfl, hxs⟩ := isLiteral_iff.mp hds
  obtain ⟨ys, hys, hclosed⟩ := isLiteral_iff.mp hcs
  have hsame : xs ++ rest = ys ++ [] := by
    rw [List.append_nil]
    exact (List.cons.inj hys).2
  obtain ⟨_, rfl⟩ := closes_append_inj hxs hclosed hsame
  exact (List.append_nil _).symm

/-- **Literals are the quoted sequences of units**, and none is the beginning of another. They are
also what is found by taking off both quotes and scanning what stands between them. -/
theorem isLiteral_exact (cs : List Char) :
    (isLiteral cs = true ↔
        ∃ units : List Piece, cs = '"' :: (units.flatMap Piece.chars ++ ['"'])) ∧
      (isLiteral cs = true ↔ ∃ inner, cs = '"' :: (inner ++ ['"']) ∧ scan false inner = true) ∧
      (isLiteral cs = true → ∀ ds, ds <+: cs → ds ≠ cs → isLiteral ds = false) := by
  refine ⟨?_, ?_, fun hcs ds hprefix hne ↦ ?_⟩
  · rw [isLiteral_iff_isInside]
    constructor
    · rintro ⟨_, hcs, units, rfl⟩
      exact ⟨units, hcs⟩
    · rintro ⟨units, hcs⟩
      exact ⟨_, hcs, units, rfl⟩
  · simp only [isLiteral_iff_isInside, scan_iff]
  · by_contra hds
    rw [Bool.not_eq_false] at hds
    exact hne (isLiteral_eq_of_begins hcs hds hprefix)

/-- A quote after an odd number of backslashes does not end a literal, one after an even number
does. -/
theorem isLiteral_exact_backslashes :
    let text := ['"', 'a', '\\', '\\', '\\', '"', '\\', '\\', '"']
    isLiteral text = true ∧ isLiteral (text.take 6) = false ∧
      ∃ units : List Piece, text = '"' :: (units.flatMap Piece.chars ++ ['"']) := by
  intro text
  have haccepted : isLiteral text = true := rfl
  refine ⟨haccepted, ?_, (isLiteral_exact text).1.mp haccepted⟩
  exact (isLiteral_exact text).2.2 haccepted (text.take 6) ⟨text.drop 6, rfl⟩ (by decide)

end FormulaEdit.Literal
