import FormulaEdit.Formula.Shape
import Mathlib.Data.List.Forall2

/-!
# Well-shaped formulas

`Grammar.faultIn?` walks a formula and stops at the first node that is wrong. The proofs about edits
need the other side of it: what holds of a formula in which nothing is wrong. That is `Shaped`, a
condition on each node and the kinds of its parts, with no order, no paths and no messages in it.

## Fitting is an equivalence

A place declared as an operator takes every operator of the same category, and any other place takes
its own kind only. Symmetry and transitivity of `Grammar.fits` are what make operators replaceable
over and over: a part may change as long as it fits its predecessor, and nobody has to remember what
the place was declared as.
-/

namespace FormulaEdit

theorem exists_left_of_forall₂ {α β : Type} {R : α → β → Prop} {xs : List α} {ys : List β}
    (h : List.Forall₂ R xs ys) {y : β} (hy : y ∈ ys) : ∃ x ∈ xs, R x y := by
  induction h with
  | nil => cases hy
  | cons hxy _ ih =>
    rcases List.mem_cons.mp hy with rfl | hy
    · exact ⟨_, List.mem_cons_self, hxy⟩
    · obtain ⟨x, hx, hR⟩ := ih hy
      exact ⟨x, List.mem_cons_of_mem _ hx, hR⟩

namespace Grammar

variable {g : Grammar}

/-! ## Fitting -/

theorem interchangeable_iff {name other : String} :
    g.interchangeable name other = true ↔
      ∃ op op', g.find? name = some op ∧ g.find? other = some op' ∧ op.returns = op'.returns := by
  unfold interchangeable
  cases g.find? name <;> cases g.find? other <;> simp

theorem interchangeable_symm {name other : String} (h : g.interchangeable name other = true) :
    g.interchangeable other name = true := by
  obtain ⟨op, op', hop, hop', hret⟩ := interchangeable_iff.mp h
  exact interchangeable_iff.mpr ⟨op', op, hop', hop, hret.symm⟩

theorem interchangeable_trans {a b c : String} (hab : g.interchangeable a b = true)
    (hbc : g.interchangeable b c = true) : g.interchangeable a c = true := by
  obtain ⟨opa, opb, ha, hb, hret⟩ := interchangeable_iff.mp hab
  obtain ⟨opb', opc, hb', hc, hret'⟩ := interchangeable_iff.mp hbc
  obtain rfl : opb = opb' := Option.some.inj (hb.symm.trans hb')
  exact interchangeable_iff.mpr ⟨opa, opc, ha, hc, hret.trans hret'⟩

theorem fits_iff {expected found : Kind} :
    g.fits expected found = true ↔ expected = found ∨
      ∃ name other, expected = .operator name ∧ found = .operator other ∧
        g.interchangeable name other = true := by
  unfold fits
  cases expected <;> cases found <;> simp

@[simp] theorem fits_refl (kind : Kind) : g.fits kind kind = true :=
  fits_iff.mpr (Or.inl rfl)

theorem fits_symm {a b : Kind} (h : g.fits a b = true) : g.fits b a = true := by
  rcases fits_iff.mp h with rfl | ⟨name, other, rfl, rfl, hi⟩
  · exact fits_refl a
  · exact fits_iff.mpr (Or.inr ⟨other, name, rfl, rfl, interchangeable_symm hi⟩)

theorem fits_trans {a b c : Kind} (hab : g.fits a b = true) (hbc : g.fits b c = true) :
    g.fits a c = true := by
  rcases fits_iff.mp hab with rfl | ⟨name, other, rfl, rfl, hi⟩
  · exact hbc
  · rcases fits_iff.mp hbc with rfl | ⟨_, third, hb, rfl, hi'⟩
    · exact hab
    · obtain rfl := Kind.operator.inj hb
      exact fits_iff.mpr (Or.inr ⟨name, third, rfl, rfl, interchangeable_trans hi hi'⟩)

/-- What fits is told apart from the declared kind only by the name of an operator. -/
theorem fits_cases {expected found : Kind} (h : g.fits expected found = true) :
    expected = found ∨ ∃ name, found = .operator name := by
  rcases fits_iff.mp h with rfl | ⟨_, other, _, rfl, _⟩
  · exact Or.inl rfl
  · exact Or.inr ⟨other, rfl⟩

/-! ## The live variant of a union -/

theorem liveVariant?_fits {variants : List Kind} {found : Kind} {index : Nat}
    (h : g.liveVariant? variants found = some index) :
    ∃ variant, variants[index]? = some variant ∧ g.fits variant found = true := by
  rcases Option.or_eq_some_iff.mp h with h | ⟨_, h⟩
  · obtain ⟨hlt, hp, _⟩ := List.findIdx?_eq_some_iff_getElem.mp h
    refine ⟨variants[index], List.getElem?_eq_getElem hlt, ?_⟩
    rw [of_decide_eq_true hp]
    exact fits_refl found
  · obtain ⟨hlt, hp, _⟩ := List.findIdx?_eq_some_iff_getElem.mp h
    exact ⟨variants[index], List.getElem?_eq_getElem hlt, hp⟩

theorem exists_liveVariant? {variants : List Kind} {variant found : Kind} (hv : variant ∈ variants)
    (h : g.fits variant found = true) : ∃ index, g.liveVariant? variants found = some index := by
  have hsome : (variants.findIdx? (g.fits · found)).isSome = true := by
    rw [List.findIdx?_isSome, List.any_eq_true]
    exact ⟨variant, hv, h⟩
  rw [← Option.isSome_iff_exists, liveVariant?, Option.isSome_or, hsome, Bool.or_true]

/-! ## The shape of one node and of a formula -/

/-- Whether parts of the given kinds make up a node of a kind. -/
def Accepts (g : Grammar) : Kind → List Kind → Prop
  | .atom _, parts => parts = []
  | .operator name, parts =>
    ∃ op, g.find? name = some op ∧
      List.Forall₂ (fun arg part ↦ g.fits arg.kind part = true) op.args parts
  | .union variants, parts =>
    ∃ live, parts = [live] ∧ ∃ variant ∈ variants, g.fits variant live = true
  | .list element, parts => ∀ part ∈ parts, g.fits element part = true

def rootKinds (parts : List FormulaTree) : List Kind := parts.map fun part ↦ part.value.kind

@[simp] theorem rootKinds_append (parts others : List FormulaTree) :
    rootKinds (parts ++ others) = rootKinds parts ++ rootKinds others := List.map_append

@[simp] theorem rootKinds_cons (part : FormulaTree) (parts : List FormulaTree) :
    rootKinds (part :: parts) = part.value.kind :: rootKinds parts := rfl

@[simp] theorem rootKinds_nil : rootKinds [] = [] := rfl

/-- A formula in which every node is made up of parts that fit. -/
inductive Shaped (g : Grammar) : FormulaTree → Prop
  | node {node : Node} {parts : List FormulaTree} (accepts : g.Accepts node.kind (rootKinds parts))
      (shaped : ∀ part ∈ parts, Shaped g part) : Shaped g (.node node parts)

theorem shaped_node_iff {node : Node} {parts : List FormulaTree} :
    g.Shaped (.node node parts) ↔
      g.Accepts node.kind (rootKinds parts) ∧ ∀ part ∈ parts, g.Shaped part :=
  ⟨fun h ↦ by cases h with | node accepts shaped => exact ⟨accepts, shaped⟩,
    fun h ↦ .node h.1 h.2⟩

/-- The places of a node are given by its kind, and its parts fit them exactly if the kind accepts
the parts. -/
theorem accepts_iff_places {kind : Kind} {parts : List FormulaTree} :
    g.Accepts kind (rootKinds parts) ↔ ∃ places, g.places kind parts = .ok places ∧
      List.Forall₂ (fun place part ↦ g.fits place part = true) places (rootKinds parts) := by
  cases kind with
  | atom type =>
    cases parts <;> simp [Accepts, places, rootKinds]
  | operator name =>
    cases hop : g.find? name with
    | none => simp [Accepts, places, hop]
    | some op =>
      by_cases hlen : op.args.length = parts.length
      · simp [Accepts, places, hop, hlen, List.forall₂_map_left_iff]
      · simp only [Accepts, places, hop, if_neg hlen]
        constructor
        · rintro ⟨_, hop', hparts⟩
          obtain rfl := Option.some.inj hop'
          exact absurd (by simpa [rootKinds] using hparts.length_eq) hlen
        · rintro ⟨_, h, _⟩
          cases h
  | union variants =>
    rcases parts with _ | ⟨live, _ | ⟨next, rest⟩⟩
    · simp [Accepts, places]
    · simp only [Accepts, places, rootKinds_cons, rootKinds_nil]
      constructor
      · rintro ⟨_, hlive, variant, hv, hfits⟩
        obtain rfl : live.value.kind = _ := List.singleton_inj.mp hlive
        obtain ⟨index, hindex⟩ := exists_liveVariant? hv hfits
        obtain ⟨found, hfound, hfits'⟩ := liveVariant?_fits hindex
        exact ⟨[found], by rw [hindex, Option.bind_some, hfound], by simp [hfits']⟩
      · rintro ⟨places, hplaces, hparts⟩
        cases hindex : g.liveVariant? variants live.value.kind with
        | none => simp [hindex] at hplaces
        | some index =>
          obtain ⟨found, hfound, hfits⟩ := liveVariant?_fits hindex
          exact ⟨_, rfl, found, List.mem_of_getElem? hfound, hfits⟩
    · simp [Accepts, places]
  | list element =>
    simp only [Accepts, places, Except.ok.injEq, exists_eq_left', rootKinds,
      List.forall₂_map_left_iff, List.forall₂_map_right_iff, List.forall₂_same, List.mem_map,
      forall_exists_index, and_imp, forall_apply_eq_imp_iff₂]

/-! ## The walk finds no fault exactly in a shaped formula -/

theorem places_length {kind : Kind} {parts : List FormulaTree} {places : List Kind}
    (h : g.places kind parts = .ok places) : places.length = parts.length := by
  unfold Grammar.places at h
  split at h
  · split at h
    · cases h
      simp_all
    · cases h
  · split at h
    · cases h
    · split at h
      · cases h
        simpa
      · cases h
  · split at h
    · split at h
      · cases h
        rfl
      · cases h
    · cases h
  · cases h
    simp

mutual

theorem shapeFault?_eq_none_iff (path : NodePath) :
    (t : FormulaTree) → (g.shapeFault? path t = none ↔ g.Shaped t)
  | .node node parts => by
    rw [shapeFault?, shaped_node_iff, accepts_iff_places]
    cases hplaces : g.places node.kind parts with
    | error cause => simp
    | ok places =>
      simp only [Except.ok.injEq, exists_eq_left']
      exact partsFault?_eq_none_iff path 0 places parts (places_length hplaces)

theorem partsFault?_eq_none_iff (path : NodePath) (index : Nat) (places : List Kind) :
    (parts : List FormulaTree) → places.length = parts.length →
      (g.partsFault? path index places parts = none ↔
        List.Forall₂ (fun place part ↦ g.fits place part = true) places (rootKinds parts) ∧
          ∀ part ∈ parts, g.Shaped part)
  | [], hlen => by
    obtain rfl := List.length_eq_zero_iff.mp hlen
    simp [partsFault?]
  | part :: parts, hlen => by
    obtain ⟨place, places, rfl⟩ := List.exists_cons_of_length_eq_add_one hlen
    have ih := partsFault?_eq_none_iff path (index + 1) places parts (by simpa using hlen)
    have ihp := shapeFault?_eq_none_iff (path ++ [index]) part
    rw [partsFault?, rootKinds_cons, List.forall₂_cons]
    by_cases hfits : g.fits place part.value.kind = true
    · rw [if_pos hfits, Option.or_eq_none_iff, ihp, ih]
      simp only [hfits, true_and, List.mem_cons, forall_eq_or_imp]
      tauto
    · simp [hfits]

end

/-- **The checker decides the shape.** -/
theorem faultIn?_eq_none_iff {t : FormulaTree} : g.faultIn? t = none ↔ g.Shaped t :=
  shapeFault?_eq_none_iff [] t

end Grammar

end FormulaEdit
