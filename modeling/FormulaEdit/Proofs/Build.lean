import FormulaEdit.Formula.Build
import FormulaEdit.Proofs.Depth
import FormulaEdit.Proofs.Shape

/-!
# New formulas

What `Grammar.buildWithin` builds is described here once, by an induction over the built formula
along with the levels that remain (`buildWithin_induction`). Shape, depth and the absence of stray
text all follow from it. That something is built at all is a matter of depth: a formula comes out
exactly if the default depth of its kind is within the levels that remain.
-/

namespace FormulaEdit

theorem map_eq_ok {ε α β : Type} {f : α → β} {x : Except ε α} {y : β} (h : x.map f = .ok y) :
    ∃ a, x = .ok a ∧ f a = y := by
  cases x with
  | error error => cases h
  | ok a => exact ⟨a, rfl, Except.ok.inj h⟩

theorem mapM_eq_ok_iff {α β ε : Type} {f : α → Except ε β} {xs : List α} {ys : List β} :
    xs.mapM f = .ok ys ↔ List.Forall₂ (fun x y ↦ f x = .ok y) xs ys := by
  induction xs generalizing ys with
  | nil =>
    rw [List.mapM_nil, List.forall₂_nil_left_iff]
    exact ⟨fun h ↦ (Except.ok.inj h).symm, fun h ↦ h ▸ rfl⟩
  | cons x xs ih =>
    rw [List.mapM_cons, List.forall₂_cons_left_iff]
    cases hx : f x with
    | error e => simp [bind, Except.bind]
    | ok y =>
      cases hxs : xs.mapM f with
      | error e => simp [bind, Except.bind, hxs, ← ih]
      | ok zs =>
        simp only [bind, Except.bind, hxs, pure, Except.pure, Except.ok.injEq, ← ih]
        constructor
        · rintro rfl
          exact ⟨y, zs, rfl, rfl, rfl⟩
        · rintro ⟨_, _, rfl, rfl, rfl⟩
          rfl

theorem exists_forall₂ {α β : Type} {R : α → β → Prop} {xs : List α}
    (h : ∀ x ∈ xs, ∃ y, R x y) : ∃ ys, List.Forall₂ R xs ys := by
  induction xs with
  | nil => exact ⟨[], .nil⟩
  | cons x xs ih =>
    obtain ⟨y, hy⟩ := h x List.mem_cons_self
    obtain ⟨ys, hys⟩ := ih fun z hz ↦ h z (List.mem_cons_of_mem _ hz)
    exact ⟨y :: ys, .cons hy hys⟩

namespace Tree

variable {α : Type}

@[elab_as_elim]
theorem induction {P : Tree α → Prop}
    (node : ∀ value children, (∀ child ∈ children, P child) → P (.node value children)) :
    (t : Tree α) → P t
  | .node value children => node value children fun child _ ↦ induction node child

/-- A condition on every value of a tree. -/
inductive All (p : α → Prop) : Tree α → Prop
  | node {value : α} {children : List (Tree α)} (here : p value)
      (below : ∀ child ∈ children, All p child) : All p (.node value children)

theorem all_node_iff {p : α → Prop} {value : α} {children : List (Tree α)} :
    (Tree.node value children).All p ↔ p value ∧ ∀ child ∈ children, child.All p :=
  ⟨fun h ↦ by cases h with | node here below => exact ⟨here, below⟩, fun h ↦ .node h.1 h.2⟩

theorem deepest_eq (ts : List (Tree α)) : depth.deepest ts = (ts.map depth).foldr max 0 := by
  induction ts with
  | nil => rfl
  | cons t ts ih => rw [depth.deepest, ih, List.map_cons, List.foldr_cons]

end Tree

namespace Grammar

variable {g : Grammar}

/-! ## What is built of a union and of an operator -/

section Step

variable {levels remaining : Nat} {initial : Option String} {t : FormulaTree}

theorem buildWithin_union_eq_ok_iff {first : Kind} {rest : List Kind} :
    g.buildWithin levels (remaining + 1) (.union (first :: rest)) initial = .ok t ↔
      ∃ live, g.buildWithin levels remaining first initial = .ok live ∧
        t = .node (.plain (.union (first :: rest))) [live] := by
  rw [buildWithin]
  cases g.buildWithin levels remaining first initial with
  | error fault => simp
  | ok live => simp [eq_comm]

theorem buildWithin_operator_eq_ok_iff {name : String} :
    g.buildWithin levels (remaining + 1) (.operator name) initial = .ok t ↔
      ∃ op parts, g.find? name = some op ∧
        List.Forall₂
          (fun arg part ↦ g.buildWithin levels remaining arg.kind arg.initial = .ok part)
          op.args parts ∧
        t = .node (.plain (.operator name)) parts := by
  rw [buildWithin]
  simp only [← mapM_eq_ok_iff]
  cases g.find? name with
  | none => simp
  | some op =>
    cases hparts : op.args.mapM fun arg ↦ g.buildWithin levels remaining arg.kind arg.initial with
    | error fault => simp [hparts]
    | ok parts => simp [hparts, eq_comm]

end Step

/-- **Induction over what is built**, along with the levels that remain. Each part of a new formula
is itself a new formula, of the kind declared for it and with one level less. -/
theorem buildWithin_induction {P : Nat → Kind → FormulaTree → Prop}
    (atom : ∀ remaining atom raw, P (remaining + 1) (.atom atom) (.leaf (.ofAtom atom raw)))
    (list : ∀ remaining element,
      P (remaining + 1) (.list element) (.leaf (.plain (.list element))))
    (union : ∀ remaining first rest live, live.value.kind = first → P remaining first live →
      P (remaining + 1) (.union (first :: rest)) (.node (.plain (.union (first :: rest))) [live]))
    (operator : ∀ remaining name op parts, g.find? name = some op →
      List.Forall₂ (fun arg part ↦ part.value.kind = arg.kind ∧ P remaining arg.kind part)
        op.args parts →
      P (remaining + 1) (.operator name) (.node (.plain (.operator name)) parts))
    {levels remaining : Nat} {kind : Kind} {initial : Option String} {t : FormulaTree}
    (h : g.buildWithin levels remaining kind initial = .ok t) :
    t.value.kind = kind ∧ P remaining kind t := by
  induction remaining generalizing kind initial t with
  | zero => cases h
  | succ remaining ih =>
    cases kind with
    | atom type =>
      cases h
      exact ⟨rfl, atom remaining type _⟩
    | list element =>
      cases h
      exact ⟨rfl, list remaining element⟩
    | union variants =>
      match variants with
      | [] => cases h
      | first :: rest =>
        obtain ⟨live, hlive, rfl⟩ := buildWithin_union_eq_ok_iff.mp h
        exact ⟨rfl, union remaining first rest live (ih hlive).1 (ih hlive).2⟩
    | operator name =>
      obtain ⟨op, parts, hop, hparts, rfl⟩ := buildWithin_operator_eq_ok_iff.mp h
      exact ⟨rfl, operator remaining name op parts hop (hparts.imp fun arg part hpart ↦ ih hpart)⟩

section Built

variable {levels remaining : Nat} {kind : Kind} {initial : Option String} {t : FormulaTree}

theorem buildWithin_kind (h : g.buildWithin levels remaining kind initial = .ok t) :
    t.value.kind = kind :=
  (buildWithin_induction (P := fun _ _ _ ↦ True) (by simp) (by simp) (by simp) (by simp) h).1

theorem buildWithin_shaped (h : g.buildWithin levels remaining kind initial = .ok t) :
    g.Shaped t := by
  refine (buildWithin_induction (P := fun _ _ t ↦ g.Shaped t) ?_ ?_ ?_ ?_ h).2
  · exact fun _ atom raw ↦
      .node (by simp [Node.ofAtom, Node.setInput, Node.plain, Accepts]) (by simp)
  · exact fun _ element ↦ .node (by simp [Node.plain, Accepts]) (by simp)
  · intro _ first rest live hkind hlive
    refine .node ⟨first, by simp [hkind], first, List.mem_cons_self, fits_refl first⟩ ?_
    simpa using hlive
  · intro _ name op parts hop hparts
    refine .node ⟨op, hop, ?_⟩ fun part hpart ↦ ?_
    · rw [rootKinds, List.forall₂_map_right_iff]
      refine hparts.imp fun arg part h ↦ ?_
      rw [h.1]
      exact fits_refl arg.kind
    · obtain ⟨arg, _, h⟩ := exists_left_of_forall₂ hparts hpart
      exact h.2

theorem buildWithin_depth_le (h : g.buildWithin levels remaining kind initial = .ok t) :
    t.depth ≤ remaining := by
  refine (buildWithin_induction (P := fun remaining _ t ↦ t.depth ≤ remaining) ?_ ?_ ?_ ?_ h).2
  · exact fun remaining _ _ ↦ Nat.le_add_left 1 remaining
  · exact fun remaining _ ↦ Nat.le_add_left 1 remaining
  · intro remaining first rest live _ hlive
    rw [Tree.depth, Tree.depth.deepest, Tree.depth.deepest]
    omega
  · intro remaining name op parts _ hparts
    have hdeepest : (parts.map Tree.depth).foldr max 0 ≤ remaining := by
      refine List.max_le_of_forall_le (parts.map Tree.depth) remaining fun n hn ↦ ?_
      obtain ⟨part, hpart, rfl⟩ := List.mem_map.mp hn
      obtain ⟨arg, _, h⟩ := exists_left_of_forall₂ hparts hpart
      exact h.2
    rw [Tree.depth, Tree.deepest_eq]
    omega

end Built

/-- The deepest of the parts of an operator is as deep as its deepest argument. -/
theorem deepest_spec {args : List (Argument Kind)} {parts : List FormulaTree}
    (h : List.Forall₂ (fun arg part ↦ g.HasDepth arg.kind part.depth) args parts) :
    (∀ arg ∈ args, ∃ n ≤ Tree.depth.deepest parts, g.HasDepth arg.kind n) ∧
      (Tree.depth.deepest parts = 0 ∨
        ∃ arg ∈ args, g.HasDepth arg.kind (Tree.depth.deepest parts)) := by
  induction h with
  | nil => exact ⟨by simp, Or.inl rfl⟩
  | @cons arg part args parts hpart _ ih =>
    obtain ⟨hall, hmax⟩ := ih
    rw [Tree.depth.deepest]
    refine ⟨fun other hother ↦ ?_, ?_⟩
    · rcases List.mem_cons.mp hother with rfl | hother
      · exact ⟨part.depth, le_max_left _ _, hpart⟩
      · obtain ⟨n, hn, hd⟩ := hall other hother
        exact ⟨n, hn.trans (le_max_right _ _), hd⟩
    · rcases le_total (Tree.depth.deepest parts) part.depth with hle | hle
      · rw [max_eq_left hle]
        exact Or.inr ⟨arg, List.mem_cons_self, hpart⟩
      · rw [max_eq_right hle]
        rcases hmax with hzero | ⟨other, hother, hd⟩
        · exact Or.inl hzero
        · exact Or.inr ⟨other, List.mem_cons_of_mem _ hother, hd⟩

theorem buildWithin_hasDepth {levels remaining : Nat} {kind : Kind} {initial : Option String}
    {t : FormulaTree} (h : g.buildWithin levels remaining kind initial = .ok t) :
    g.HasDepth kind t.depth := by
  refine (buildWithin_induction (P := fun _ kind t ↦ g.HasDepth kind t.depth) ?_ ?_ ?_ ?_ h).2
  · exact fun _ atom raw ↦ .atom atom
  · exact fun _ element ↦ .list element
  · intro _ first rest live _ hlive
    have hdepth := HasDepth.union rest hlive
    rwa [Tree.depth, Tree.depth.deepest, Tree.depth.deepest, Nat.max_zero, Nat.add_comm]
  · intro _ name op parts hop hparts
    rw [Tree.depth, Nat.add_comm]
    obtain ⟨hall, hmax⟩ := deepest_spec (hparts.imp fun arg part h ↦ h.2)
    exact HasDepth.of_deepest hop hall hmax

theorem exists_buildWithin {kind : Kind} {n : Nat} (h : g.HasDepth kind n) (levels : Nat)
    {remaining : Nat} (hle : n ≤ remaining) (initial : Option String) :
    ∃ t, g.buildWithin levels remaining kind initial = .ok t := by
  induction h generalizing remaining initial with
  | atom type =>
    obtain ⟨remaining, rfl⟩ := Nat.exists_eq_add_of_le' hle
    exact ⟨_, rfl⟩
  | list element =>
    obtain ⟨remaining, rfl⟩ := Nat.exists_eq_add_of_le' hle
    exact ⟨_, rfl⟩
  | @union first depth rest _ ih =>
    cases remaining with
    | zero => omega
    | succ remaining =>
      obtain ⟨live, hlive⟩ := ih (Nat.le_of_succ_le_succ hle) initial
      exact ⟨_, buildWithin_union_eq_ok_iff.mpr ⟨live, hlive, rfl⟩⟩
  | @operator name op depths found _ ih =>
    cases remaining with
    | zero => omega
    | succ remaining =>
      have hparts : ∀ arg ∈ op.args, ∃ part,
          g.buildWithin levels remaining arg.kind arg.initial = .ok part := by
        intro arg harg
        have hdeepest := List.le_max_of_le' 0 (List.mem_map_of_mem harg) (le_refl (depths arg))
        exact ih arg harg (hdeepest.trans (Nat.le_of_succ_le_succ hle)) arg.initial
      obtain ⟨parts, hparts⟩ := exists_forall₂ hparts
      exact ⟨_, buildWithin_operator_eq_ok_iff.mpr ⟨op, parts, found, hparts, rfl⟩⟩

/-- **The levels decide.** A new formula of a kind comes out exactly if the default depth of the
kind is within the levels. -/
theorem build_isOk_iff {kind : Kind} {levels : Nat} :
    (∃ t, g.build levels kind = .ok t) ↔ ∃ n ≤ levels, g.HasDepth kind n := by
  constructor
  · rintro ⟨t, ht⟩
    exact ⟨t.depth, buildWithin_depth_le ht, buildWithin_hasDepth ht⟩
  · rintro ⟨n, hn, hd⟩
    exact exists_buildWithin hd levels hn none

end Grammar

end FormulaEdit
