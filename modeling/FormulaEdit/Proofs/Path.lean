import FormulaEdit.Edit.Basic
import FormulaEdit.Proofs.Build
import FormulaEdit.Proofs.Typed
import Mathlib.Algebra.Order.Ring.Nat

/-!
# Written paths

A path has one written form and many spellings: blanks may stand around the text and around each of
its positions, and a position may have a plus sign and leading zeros. `NodePath.Spells` says which
texts spell a path, by the pieces between the dots of the trimmed text. Reading computes this
relation, and the written form of a path is one of its spellings, as long as every position fits a
machine word.

The root is the exception to the rule of pieces. It has no positions, so it is spelled by a single
dot or by nothing at all, and neither of these texts has pieces that are numerals.
-/

namespace FormulaEdit

open Text Number

theorem mapM_eq_some_iff {α β : Type} {f : α → Option β} {xs : List α} {ys : List β} :
    xs.mapM f = some ys ↔ List.Forall₂ (fun x y ↦ f x = some y) xs ys := by
  induction xs generalizing ys with
  | nil =>
    rw [List.mapM_nil, List.forall₂_nil_left_iff]
    exact ⟨fun h ↦ (Option.some.inj h).symm, fun h ↦ h ▸ rfl⟩
  | cons x xs ih =>
    rw [List.mapM_cons, List.forall₂_cons_left_iff]
    simp only [Option.bind_eq_bind, Option.bind_eq_some_iff, Option.pure_def, ← ih]
    constructor
    · rintro ⟨y, hy, rest, hrest, hys⟩
      exact ⟨y, rest, hy, hrest, (Option.some.inj hys).symm⟩
    · rintro ⟨y, rest, hy, hrest, rfl⟩
      exact ⟨y, hy, rest, hrest, rfl⟩

namespace NodePath

/-- How a piece of a text writes a position: as a numeral, with or without blanks around it. -/
def IsPosition (piece : List Char) (index : Nat) : Prop :=
  IsNumeral (trim piece) index ∧ index ≤ maxIndex

/-- How a text spells a path. Blanks around it do not count. It is empty or a dot for the root, and
otherwise the pieces between its dots write the positions in order. -/
def Spells (s : String) (p : NodePath) : Prop :=
  (trim s.toList = [] ∨ trim s.toList = ['.']) ∧ p = [] ∨
    List.Forall₂ IsPosition ((trim s.toList).splitOn '.') p

variable {s : String} {p : NodePath}

/-! ## Reading -/

theorem not_isPosition_nil (index : Nat) : ¬IsPosition [] index := by
  rintro ⟨⟨digits, rfl | hsign, hne, _⟩, _⟩
  · exact hne rfl
  · cases hsign

theorem readIndex?_trim_eq_some_iff {piece : List Char} {index : Nat} :
    readIndex? (trim piece) = some index ↔ IsPosition piece index :=
  readNat?_eq_some_iff

/-- **A path is read from its spellings.** -/
theorem read?_eq_some_iff : read? s = some p ↔ Spells s p := by
  rw [read?, Spells, pieces_eq_splitOn]
  generalize trim s.toList = body
  simp only [Bool.or_eq_true, decide_eq_true_eq]
  split_ifs with hroot
  · -- neither spelling of the root has a numeral before its first dot
    have hnone : ∀ pieces, ¬List.Forall₂ IsPosition ([] :: pieces) p := by
      rintro pieces (_ | ⟨hposition, _⟩)
      exact not_isPosition_nil _ hposition
    have hpieces : ¬List.Forall₂ IsPosition (body.splitOn '.') p := by
      rcases hroot with rfl | rfl
      · exact hnone []
      · exact hnone [[]]
    simp [hroot, hpieces, eq_comm]
  · simp only [mapM_eq_some_iff, readIndex?_trim_eq_some_iff, hroot, false_and, false_or]

theorem read_eq_ok_iff : read s = .ok p ↔ Spells s p := by
  rw [← read?_eq_some_iff, read]
  cases read? s <;> simp

theorem read_eq_error {error : EditorError} (h : read s = .error error) :
    error = .malformedPath s := by
  rw [read] at h
  split at h
  · cases h
  · exact (Except.error.inj h).symm

theorem exists_spells_iff :
    (∃ p, Spells s p) ↔ trim s.toList = [] ∨ trim s.toList = ['.'] ∨
      ∀ piece ∈ (trim s.toList).splitOn '.', ∃ index, IsPosition piece index := by
  constructor
  · rintro ⟨p, ⟨hroot, _⟩ | hpieces⟩
    · exact hroot.imp_right Or.inl
    · refine Or.inr (Or.inr fun piece hpiece ↦ ?_)
      obtain ⟨index, _, hindex⟩ := exists_left_of_forall₂ hpieces.flip hpiece
      exact ⟨index, hindex⟩
  · rintro (hroot | hroot | hpieces)
    · exact ⟨[], Or.inl ⟨Or.inl hroot, rfl⟩⟩
    · exact ⟨[], Or.inl ⟨Or.inr hroot, rfl⟩⟩
    · obtain ⟨p, hp⟩ := exists_forall₂ hpieces
      exact ⟨p, Or.inr hp⟩

/-! ## Writing -/

theorem toList_text (hp : p ≠ []) :
    (text p).toList = ['.'].intercalate (p.map (Nat.toDigits 10)) := by
  rw [text, if_neg (by simpa using hp), String.toList_intercalate, List.map_map]
  have hdigits : String.toList ∘ toString = Nat.toDigits 10 := by
    funext n
    exact Nat.toList_repr
  rw [hdigits]
  rfl

theorem isDigit_of_mem_toDigits {n : Nat} {c : Char} (h : c ∈ Nat.toDigits 10 n) :
    c.isDigit = true :=
  Nat.isDigit_of_mem_toDigits (by decide) (by decide) h

theorem mem_text {c : Char} (h : c ∈ (text p).toList) : c = '.' ∨ c.isDigit = true := by
  obtain _ | ⟨index, p⟩ := p
  · exact Or.inl (List.mem_singleton.mp h)
  rw [toList_text (List.cons_ne_nil _ _)] at h
  induction p generalizing index with
  | nil => exact Or.inr (isDigit_of_mem_toDigits (by simpa using h))
  | cons next p ih =>
    rw [List.map_cons, List.map_cons, List.intercalate_cons_cons, ← List.map_cons,
      List.mem_append, List.mem_append] at h
    rcases h with (h | h) | h
    · exact Or.inr (isDigit_of_mem_toDigits h)
    · exact Or.inl (List.mem_singleton.mp h)
    · exact ih next h

theorem isBlank_of_mem_text {c : Char} (h : c ∈ (text p).toList) : isBlank c = false := by
  rcases mem_text h with rfl | hdigit
  · rfl
  · exact isBlank_of_isDigit hdigit

theorem Spells.le (h : Spells s p) : ∀ index ∈ p, index ≤ maxIndex := by
  intro index hindex
  rcases h with ⟨_, rfl⟩ | h
  · cases hindex
  · obtain ⟨_, _, _, hle⟩ := exists_left_of_forall₂ h hindex
    exact hle

theorem spells_text (h : ∀ index ∈ p, index ≤ maxIndex) : Spells (text p) p := by
  rw [Spells, trim_eq_self fun c hc ↦ isBlank_of_mem_text hc]
  by_cases hp : p = []
  · exact Or.inl ⟨Or.inr (by rw [hp]; rfl), hp⟩
  have hdot : ∀ digits ∈ p.map (Nat.toDigits 10), '.' ∉ digits := by
    intro digits hdigits hmem
    obtain ⟨index, _, rfl⟩ := List.mem_map.mp hdigits
    exact absurd (isDigit_of_mem_toDigits hmem) (by decide)
  rw [toList_text hp, List.splitOn_intercalate '.' hdot (by simpa using hp),
    List.forall₂_map_left_iff, List.forall₂_same]
  refine Or.inr fun index hindex ↦ ⟨?_, h index hindex⟩
  rw [trim_eq_self fun c hc ↦ isBlank_of_isDigit (isDigit_of_mem_toDigits hc)]
  exact isNumeral_toDigits index

theorem text_ne_empty (p : NodePath) : text p ≠ "" := by
  rw [ne_eq, ← String.toList_eq_nil_iff]
  obtain _ | ⟨index, _ | ⟨next, p⟩⟩ := p
  · exact List.cons_ne_nil _ _
  · rw [toList_text (List.cons_ne_nil _ _)]
    simp
  · rw [toList_text (List.cons_ne_nil _ _), List.map_cons, List.map_cons,
      List.intercalate_cons_cons]
    simp

theorem read_text (h : ∀ index ∈ p, index ≤ maxIndex) : read (text p) = .ok p :=
  read_eq_ok_iff.mpr (spells_text h)

/-- **Paths are read exactly from their spellings.** The written form of a path is read back. A text
is read if and only if it is empty, a dot or a list of numerals once blanks are taken off, and what
is read has the values of the numerals in order and is read back from its own written form. A text
that is no path is reported unchanged. -/
theorem read_accepts_exactly (s : String) :
    (∀ p : NodePath, (∀ index ∈ p, index < 2 ^ 64) → read (text p) = .ok p) ∧
      ((∃ p, read s = .ok p) ↔ trim s.toList = [] ∨ trim s.toList = ['.'] ∨
        ∀ piece ∈ (trim s.toList).splitOn '.',
          ∃ index, IsNumeral (trim piece) index ∧ index ≤ 2 ^ 64 - 1) ∧
      (∀ p, read s = .ok p → Spells s p ∧ read (text p) = .ok p) ∧
      ∀ error, read s = .error error → error = .malformedPath s := by
  refine ⟨fun p hp ↦ read_text fun index hindex ↦ ?_, ?_, fun p hp ↦ ?_,
    fun error herror ↦ read_eq_error herror⟩
  · exact Nat.le_sub_one_of_lt (hp index hindex)
  · simp only [read_eq_ok_iff]
    exact exists_spells_iff
  · rw [read_eq_ok_iff] at hp
    exact ⟨hp, read_text hp.le⟩

theorem read_accepts_exactly_spellings :
    let s := " 007 .+2. 18446744073709551615"
    let p : NodePath := [7, 2, 18446744073709551615]
    read s = .ok p ∧ Spells s p ∧ read (text p) = .ok p ∧
      read "0..1 " = .error (.malformedPath "0..1 ") := by
  intro s p
  have hread : read s = .ok p := by decide +kernel
  obtain ⟨hwritten, _, hspelled, _⟩ := read_accepts_exactly s
  refine ⟨hread, (hspelled p hread).1, hwritten p (by simp [p]), ?_⟩
  obtain ⟨error, hbad⟩ : ∃ error, read "0..1 " = .error error :=
    ⟨.malformedPath "0..1 ", by decide +kernel⟩
  rw [hbad, (read_accepts_exactly "0..1 ").2.2.2 error hbad]

end NodePath

end FormulaEdit
