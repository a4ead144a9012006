import FormulaEdit.Edit.Apply
import FormulaEdit.Proofs.Load

/-!
# Every variant can be selected

A variant is selected by its written form first, then by it up to case, and by its position last. An
operator may be called `1` or `LIST[INT]`, and two variants may share one written form, so neither
its form nor its plain position need select a variant. A position may be written with leading zeros,
however. With more digits than any written form has characters it is no written form at all, and it
selects the variant that stands there.
-/

namespace FormulaEdit

namespace Text

theorem length_folded (s : String) : (folded s).length = s.length := by
  rw [folded, String.length_ofList, List.length_map, String.length_toList]

end Text

namespace Number

theorem digitsValue_replicate_append (k : Nat) (cs : List Char) :
    digitsValue (List.replicate k '0' ++ cs) = digitsValue cs := by
  induction k with
  | zero => rfl
  | succ k ih =>
    rw [List.replicate_succ, List.cons_append, ← ih]
    rfl

end Number

/-- A position with so many leading zeros that it is longer than all the given texts. -/
def paddedIndex (texts : List String) (index : Nat) : List Char :=
  List.replicate ((texts.map String.length).foldr max 0 + 1) '0' ++ Nat.toDigits 10 index

theorem isDigit_of_mem_paddedIndex {texts : List String} {index : Nat} {c : Char}
    (h : c ∈ paddedIndex texts index) : c.isDigit = true := by
  rcases List.mem_append.mp h with h | h
  · rw [List.eq_of_mem_replicate h]
    rfl
  · exact Nat.isDigit_of_mem_toDigits (by decide) (by decide) h

theorem length_lt_paddedIndex {texts : List String} {text : String} (h : text ∈ texts)
    (index : Nat) : text.length < (paddedIndex texts index).length := by
  have hle : text.length ≤ (texts.map String.length).foldr max 0 :=
    List.le_max_of_le' 0 (List.mem_map_of_mem h) le_rfl
  rw [paddedIndex, List.length_append, List.length_replicate]
  omega

/-- A selector that is no written form, because of its length, is a position. -/
theorem resolveVariant?_of_length_ne {variants : List Kind} {selector : String}
    (h : ∀ v ∈ variants, v.text.length ≠ (Text.trimmed selector).length) :
    resolveVariant? variants selector =
      (Number.readNat? variants.length (Text.trimmed selector).toList).filter
        (· < variants.length) := by
  have hexact : variants.findIdx? (·.text = Text.trimmed selector) = none := by
    rw [List.findIdx?_eq_none_iff]
    intro v hv
    rw [decide_eq_false_iff_not]
    exact fun heq ↦ h v hv (congrArg String.length heq)
  have hfolded : (variants.findIdx? fun v ↦
      Text.folded v.text = Text.folded (Text.trimmed selector)) = none := by
    rw [List.findIdx?_eq_none_iff]
    intro v hv
    rw [decide_eq_false_iff_not]
    intro heq
    have hlength := congrArg String.length heq
    rw [Text.length_folded, Text.length_folded] at hlength
    exact h v hv hlength
  simp only [resolveVariant?, hexact, hfolded, Option.none_or]

/-- **Every variant can be selected**, whatever the variants are called. -/
theorem exists_selector {variants : List Kind} {index : Nat} (h : index < variants.length) :
    ∃ selector, resolveVariant? variants selector = some index := by
  have hdigits : ∀ c ∈ paddedIndex (variants.map Kind.text) index, c.isDigit = true :=
    fun c hc ↦ isDigit_of_mem_paddedIndex hc
  have hvalue : Number.digitsValue (paddedIndex (variants.map Kind.text) index) = index := by
    rw [paddedIndex, Number.digitsValue_replicate_append, Number.digitsValue_toDigits]
  have hlength : ∀ v ∈ variants,
      v.text.length < (paddedIndex (variants.map Kind.text) index).length :=
    fun v hv ↦ length_lt_paddedIndex (List.mem_map_of_mem hv) index
  generalize paddedIndex (variants.map Kind.text) index = digits at hdigits hvalue hlength
  refine ⟨String.ofList digits, ?_⟩
  have htrimmed : Text.trimmed (String.ofList digits) = String.ofList digits := by
    rw [Text.trimmed, String.toList_ofList,
      Text.trim_eq_self fun c hc ↦ Text.isBlank_of_isDigit (hdigits c hc)]
  have hne : digits ≠ [] := by
    rintro rfl
    cases variants with
    | nil => cases h
    | cons v variants => exact absurd (hlength v List.mem_cons_self) (Nat.not_lt_zero _)
  rw [resolveVariant?_of_length_ne, htrimmed, String.toList_ofList,
    Number.readNat?_eq_some_iff.mpr ⟨⟨digits, Or.inl rfl, hne, hdigits, hvalue⟩, h.le⟩,
    Option.filter_some_pos]
  · simpa using h
  · intro v hv
    rw [htrimmed, String.length_ofList]
    exact (hlength v hv).ne

end FormulaEdit
