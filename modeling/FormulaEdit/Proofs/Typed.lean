import FormulaEdit.Number.Bounded
import FormulaEdit.Text.Blank
import Mathlib.Data.List.DropRight
import Mathlib.Data.List.Forall2
import Mathlib.Data.List.TakeWhile

/-!
# Typed text

The parts that the readers of typed text share: the blank margins that are taken off, the pieces
between the occurrences of a character, and the numerals.

A text is a tight part, which neither starts nor ends with a blank, between two margins. `trim`
finds the tight part, whatever the margins are (`Text.trim_pad`), and leaves a tight text alone.
-/

namespace FormulaEdit

namespace Text

variable {cs : List Char}

/-! ## Margins -/

theorem isBlank_of_isDigit {c : Char} (h : c.isDigit = true) : isBlank c = false := by
  simp only [Char.isDigit, Bool.and_eq_true, decide_eq_true_eq, ge_iff_le] at h
  have hlow : 48 ≤ c.toNat := h.1
  have hhigh : c.toNat ≤ 57 := h.2
  simp only [isBlank, Bool.or_eq_false_iff, Bool.and_eq_false_iff, decide_eq_false_iff_not,
    beq_eq_false_iff_ne, Char.le_def, ne_eq, Char.ext_iff, UInt32.le_iff_toNat_le,
    ← UInt32.toNat_inj]
  simp
  omega

def IsMargin (cs : List Char) : Prop := ∀ c ∈ cs, isBlank c = true

theorem isMargin_nil : IsMargin [] := fun _ hc ↦ absurd hc List.not_mem_nil

/-- A text that neither starts nor ends with a blank. -/
structure Tight (cs : List Char) : Prop where
  head : ∀ c ∈ cs.head?, isBlank c = false
  last : ∀ c ∈ cs.getLast?, isBlank c = false

theorem tight_of_forall (h : ∀ c ∈ cs, isBlank c = false) : Tight cs :=
  ⟨fun c hc ↦ h c (List.mem_of_mem_head? hc), fun c hc ↦ h c (List.mem_of_mem_getLast? hc)⟩

theorem trimStart_eq_self_iff : trimStart cs = cs ↔ ∀ c ∈ cs.head?, isBlank c = false := by
  cases cs with
  | nil => simp [trimStart]
  | cons c cs =>
    rw [trimStart, List.dropWhile_eq_self_iff]
    simp

theorem trimEnd_eq_reverse (cs : List Char) : trimEnd cs = (trimStart cs.reverse).reverse := rfl

theorem trimEnd_eq_self_iff : trimEnd cs = cs ↔ ∀ c ∈ cs.getLast?, isBlank c = false := by
  rw [trimEnd_eq_reverse, List.reverse_eq_iff, trimStart_eq_self_iff, List.head?_reverse]

theorem trimStart_margin_append {margin : List Char} (h : IsMargin margin) (cs : List Char) :
    trimStart (margin ++ cs) = trimStart cs :=
  List.dropWhile_append_of_pos h

theorem trimEnd_append_margin {margin : List Char} (h : IsMargin margin) (cs : List Char) :
    trimEnd (cs ++ margin) = trimEnd cs := by
  have hreverse : IsMargin margin.reverse := fun c hc ↦ h c (List.mem_reverse.mp hc)
  rw [trimEnd_eq_reverse, List.reverse_append, trimStart_margin_append hreverse,
    ← trimEnd_eq_reverse]

/-- **Trimming finds the tight part** between two margins. -/
theorem trim_pad {before after : List Char} (hbefore : IsMargin before) (hcs : Tight cs)
    (hafter : IsMargin after) : trim (before ++ cs ++ after) = cs := by
  rw [trim, List.append_assoc, trimStart_margin_append hbefore]
  cases cs with
  | nil =>
    have hblank : trimStart after = [] := List.dropWhile_eq_nil_iff.mpr hafter
    rw [List.nil_append, hblank]
    rfl
  | cons c cs =>
    have hstart : trimStart (c :: cs ++ after) = c :: cs ++ after :=
      trimStart_eq_self_iff.mpr hcs.head
    rw [hstart, trimEnd_append_margin hafter, trimEnd_eq_self_iff.mpr hcs.last]

theorem trim_of_tight (h : Tight cs) : trim cs = cs := by
  simpa using trim_pad isMargin_nil h isMargin_nil

theorem trim_eq_self (h : ∀ c ∈ cs, isBlank c = false) : trim cs = cs :=
  trim_of_tight (tight_of_forall h)

/-- Taking the end off a text without blanks at its start leaves it without blanks there. -/
theorem trimStart_trimEnd (h : trimStart cs = cs) : trimStart (trimEnd cs) = trimEnd cs := by
  rw [trimStart, List.dropWhile_eq_self_iff] at h ⊢
  intro hpos
  have hstart : trimEnd cs <+: cs := List.rdropWhile_prefix isBlank cs
  rw [hstart.getElem]
  exact h (hpos.trans_le hstart.length_le)

theorem tight_trim (cs : List Char) : Tight (trim cs) := by
  have hstart : trimStart (trimStart cs) = trimStart cs := List.dropWhile_idempotent isBlank cs
  have hend : trimEnd (trimEnd (trimStart cs)) = trimEnd (trimStart cs) :=
    List.rdropWhile_idempotent isBlank _
  exact ⟨trimStart_eq_self_iff.mp (trimStart_trimEnd hstart), trimEnd_eq_self_iff.mp hend⟩

theorem exists_margins (cs : List Char) :
    ∃ before after, IsMargin before ∧ IsMargin after ∧ cs = before ++ trim cs ++ after := by
  refine ⟨cs.takeWhile isBlank, (trimStart cs).rtakeWhile isBlank,
    fun c hc ↦ List.mem_takeWhile_imp hc, fun c hc ↦ List.mem_rtakeWhile_imp hc, ?_⟩
  have hend : trim cs ++ (trimStart cs).rtakeWhile isBlank = trimStart cs :=
    List.rdropWhile_append_rtakeWhile
  rw [List.append_assoc, hend]
  exact List.takeWhile_append_dropWhile.symm

theorem trim_margins {before after : List Char} (hbefore : IsMargin before)
    (hafter : IsMargin after) (cs : List Char) : trim (before ++ cs ++ after) = trim cs := by
  obtain ⟨left, right, hleft, hright, hcs⟩ := exists_margins cs
  have hwider : before ++ cs ++ after = (before ++ left) ++ trim cs ++ (right ++ after) := by
    conv_lhs => rw [hcs]
    simp
  rw [hwider]
  exact trim_pad (List.forall_mem_append.mpr ⟨hbefore, hleft⟩) (tight_trim cs)
    (List.forall_mem_append.mpr ⟨hright, hafter⟩)

theorem trim_trim (cs : List Char) : trim (trim cs) = trim cs := trim_of_tight (tight_trim cs)

theorem trimmed_trimmed (s : String) : trimmed (trimmed s) = trimmed s := by
  rw [trimmed, trimmed, String.toList_ofList, trim_trim]

theorem trim_eq_nil_iff : trim cs = [] ↔ ∀ c ∈ cs, isBlank c := by
  rw [trim, trimEnd, trimStart, List.reverse_eq_nil_iff, List.dropWhile_eq_nil_iff]
  constructor
  · intro h
    by_contra hne
    have hdrop : cs.dropWhile isBlank ≠ [] := fun hnil ↦ hne (List.dropWhile_eq_nil_iff.mp hnil)
    have hhead := List.head_dropWhile_not isBlank hdrop
    rw [h _ (List.mem_reverse.mpr (List.head_mem hdrop))] at hhead
    cases hhead
  · intro h c hc
    exact h c ((List.dropWhile_sublist isBlank).subset (List.mem_reverse.mp hc))

/-! ## Pieces -/

theorem pieces_eq_splitOn (sep : Char) (cs : List Char) : pieces sep cs = cs.splitOn sep := by
  induction cs with
  | nil => simp [pieces]
  | cons c cs ih =>
    rw [pieces, ih, List.splitOn_cons_eq_if_modifyHead]
    by_cases hc : c = sep
    · simp [hc]
    · simp only [hc, if_false, beq_iff_eq]
      obtain ⟨piece, rest, hsplit⟩ := List.exists_cons_of_ne_nil (List.splitOn_ne_nil sep cs)
      rw [hsplit]
      rfl

end Text

/-! ## Numerals -/

namespace Number

/-- A numeral and its value: one or more digits, with or without a plus sign before them. -/
def IsNumeral (cs : List Char) (n : Nat) : Prop :=
  ∃ digits, (cs = digits ∨ cs = '+' :: digits) ∧ digits ≠ [] ∧
    (∀ c ∈ digits, c.isDigit = true) ∧ Nat.ofDigitChars 10 digits 0 = n

theorem readDigits?_eq_some_iff {digits : List Char} {n : Nat} :
    readDigits? digits = some n ↔
      digits ≠ [] ∧ (∀ c ∈ digits, c.isDigit = true) ∧ Nat.ofDigitChars 10 digits 0 = n := by
  have hvalue : digitsValue digits = Nat.ofDigitChars 10 digits 0 := rfl
  simp [readDigits?, hvalue, and_assoc]

/-- **A number is read from its numerals**, if it is not above the limit. -/
theorem readNat?_eq_some_iff {limit n : Nat} {cs : List Char} :
    readNat? limit cs = some n ↔ IsNumeral cs n ∧ n ≤ limit := by
  have hplus : ∀ digits : List Char, (∀ c ∈ digits, c.isDigit = true) →
      ∀ rest, digits ≠ '+' :: rest := by
    rintro _ hdigits rest rfl
    exact absurd (hdigits '+' List.mem_cons_self) (by decide)
  unfold readNat?
  rw [Option.filter_eq_some_iff, readDigits?_eq_some_iff, decide_eq_true_eq]
  refine and_congr_left fun _ ↦ ?_
  split
  · next rest =>
    constructor
    · intro h
      exact ⟨rest, Or.inr rfl, h⟩
    · rintro ⟨digits, hsign | hsign, hne, hdigits, hvalue⟩
      · exact absurd hsign.symm (hplus digits hdigits rest)
      · exact (List.cons.inj hsign).2 ▸ ⟨hne, hdigits, hvalue⟩
  · next hunsigned =>
    constructor
    · intro h
      exact ⟨cs, Or.inl rfl, h⟩
    · rintro ⟨digits, rfl | hsign, h⟩
      · exact h
      · exact absurd hsign (hunsigned digits)

theorem digitsValue_toDigits (n : Nat) : digitsValue (Nat.toDigits 10 n) = n :=
  Nat.ofDigitChars_toDigits (by decide) (by decide)

theorem isNumeral_toDigits (n : Nat) : IsNumeral (Nat.toDigits 10 n) n :=
  ⟨_, Or.inl rfl, Nat.toDigits_ne_nil,
    fun _ hc ↦ Nat.isDigit_of_mem_toDigits (by decide) (by decide) hc, digitsValue_toDigits n⟩

end Number

end FormulaEdit
