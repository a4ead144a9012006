import FormulaEdit.Proofs.Failure

/-!
# Measured depth and built levels

Loading measures the defaults of an operator from the bottom up and keeps what it has measured.
Building makes them from the top down and counts the levels that are left. Neither looks at the
other, and both decide whether an operator is of use. They agree on every operator of a loaded
grammar and for every bound on the levels, the one that loading itself goes by and any other.

What is measured is what `HasDepth` says, and what is built has that number of levels. So the two
are compared with `HasDepth` and not with each other.
-/

namespace FormulaEdit.Grammar

variable {g : Grammar}

/-! ## More levels -/

/-- What comes out with some levels left comes out the same with more, whatever the bound that a
fault would name. -/
theorem buildWithin_mono {levels levels' remaining remaining' : Nat} {kind : Kind}
    {initial : Option String} {t : FormulaTree} (hle : remaining ≤ remaining')
    (h : g.buildWithin levels remaining kind initial = .ok t) :
    g.buildWithin levels' remaining' kind initial = .ok t := by
  induction remaining generalizing remaining' kind initial t with
  | zero => cases h
  | succ remaining ih =>
    obtain ⟨more, rfl⟩ : ∃ more, remaining' = more + 1 := Nat.exists_eq_add_of_le' (by omega)
    have hmore : remaining ≤ more := Nat.le_of_succ_le_succ hle
    match kind with
    | .atom _ | .list _ => exact h
    | .union [] => cases h
    | .union (first :: rest) =>
      obtain ⟨live, hlive, rfl⟩ := buildWithin_union_eq_ok_iff.mp h
      exact buildWithin_union_eq_ok_iff.mpr ⟨live, ih hmore hlive, rfl⟩
    | .operator name =>
      obtain ⟨op, parts, hop, hparts, rfl⟩ := buildWithin_operator_eq_ok_iff.mp h
      have hparts' := hparts.imp fun arg part hpart ↦ ih hmore hpart
      exact buildWithin_operator_eq_ok_iff.mpr ⟨op, parts, hop, hparts', rfl⟩

/-! ## Operators of a loaded grammar -/

theorem HasDepth.exists_operatorDepth {name : String} {n : Nat} (h : g.HasDepth (.operator name) n)
    (hle : n ≤ maxDepth) {known : List (String × Nat)} (hknown : g.Known known) :
    ∃ known', g.operatorDepth name known = .ok (n, known') ∧ g.Known known' := by
  have hmeasures := measures_operatorDepth name hknown
  cases hdepth : g.operatorDepth name known with
  | error fault =>
    rw [hdepth] at hmeasures
    exact absurd h (hmeasures n hle)
  | ok result =>
    obtain ⟨depth, known'⟩ := result
    rw [hdepth] at hmeasures
    rw [hmeasures.1.unique h]
    exact ⟨known', rfl, hmeasures.2⟩

theorem buildOperator_eq {name : String} (hname : name ∈ g.names) (levels : Nat) :
    g.buildOperator levels name = g.build levels (.operator name) := by
  rw [buildOperator, if_pos (mem_names_iff_has.mp hname)]

theorem Consistent.buildOperator_eq_error (hg : g.Consistent) {name : String}
    (hname : name ∈ g.names) {levels : Nat} {fault : BuildFault}
    (h : g.buildOperator levels name = .error fault) : ∃ kind, fault = .tooDeep kind levels := by
  rw [buildOperator_eq hname, build] at h
  rcases levels with _ | remaining
  · exact ⟨.operator name, (Except.error.inj h).symm⟩
  · obtain ⟨op, hop⟩ : ∃ op, g.find? name = some op := by
      rw [← Option.isSome_iff_exists]
      exact mem_names_iff_has.mp hname
    obtain ⟨arg, harg, hfault⟩ := exists_arg_of_buildWithin_eq_error hop h
    have hoccurs : g.Occurs arg.kind := ⟨op, List.mem_of_find?_eq_some hop, arg, harg, .refl⟩
    exact hg.buildWithin_eq_error hoccurs hfault

/-- An operator with a depth comes out of exactly as many levels or more, and has as many. -/
theorem HasDepth.buildOperator_spec {name : String} {n : Nat} (h : g.HasDepth (.operator name) n)
    (levels : Nat) :
    ((∃ t, g.buildOperator levels name = .ok t) ↔ n ≤ levels) ∧
      ∀ t, g.buildOperator levels name = .ok t → t.depth = n := by
  obtain ⟨op, hop, _⟩ := h.operator_inv
  rw [buildOperator_eq (mem_names_of_find? hop)]
  constructor
  · rw [build_isOk_iff]
    constructor
    · rintro ⟨m, hm, hdepth⟩
      rwa [h.unique hdepth]
    · intro hle
      exact ⟨n, hle, h⟩
  · intro t ht
    exact (buildWithin_hasDepth ht).unique h

/-- **What loading measures is what building takes.** Every operator of a loaded grammar has a
depth that the walk finds whatever it has kept, and that is the number of levels it is built with;
with fewer levels it does not come out, for that reason only. In any grammar, what is built is of
the kind asked for, within the levels and of the right shape, and more levels give the same. -/
theorem operatorDepth_eq_levels_built :
    (∀ (description : Json) (errors : List GrammarError) (g : Grammar),
      ofJson description = (errors, g) → ∀ name ∈ g.names, ∃ depth,
        (∀ known, g.Known known →
          ∃ known', g.operatorDepth name known = .ok (depth, known') ∧ g.Known known') ∧
        ∀ levels,
          ((∃ t, g.buildOperator levels name = .ok t) ↔ depth ≤ levels) ∧
          (∀ t, g.buildOperator levels name = .ok t → t.depth = depth) ∧
          ∀ fault, g.buildOperator levels name = .error fault →
            ∃ kind, fault = .tooDeep kind levels) ∧
    ∀ (g : Grammar) (kind : Kind) (levels : Nat) (t : FormulaTree), g.build levels kind = .ok t →
      t.value.kind = kind ∧ t.depth ≤ levels ∧ g.faultIn? t = none ∧
        ∀ more, levels ≤ more → g.build more kind = .ok t := by
  constructor
  · intro description errors g hload name hname
    obtain rfl : (ofJson description).2 = g := congrArg Prod.snd hload
    obtain ⟨depth, hbound, hdepth⟩ := ofJson_hasDepth description name hname
    refine ⟨depth, fun known ↦ hdepth.exists_operatorDepth hbound, fun levels ↦ ?_⟩
    obtain ⟨hbuilt, hlevels⟩ := hdepth.buildOperator_spec levels
    refine ⟨hbuilt, hlevels, fun fault ↦ ?_⟩
    exact (ofJson_consistent description).buildOperator_eq_error hname
  · intro g kind levels t ht
    refine ⟨buildWithin_kind ht, buildWithin_depth_le ht, ?_, fun more hmore ↦ ?_⟩
    · exact faultIn?_eq_none_iff.mpr (buildWithin_shaped ht)
    · exact buildWithin_mono hmore ht

theorem operatorDepth_eq_levels_built_logic :
    let g := (ofJson Editor.logic).2
    "test" ∈ g.names ∧
      (∃ known known', g.operatorDepth "test" [] = .ok (3, known) ∧
        g.operatorDepth "test" known = .ok (3, known')) ∧
      (∀ levels, (∃ t, g.buildOperator levels "test" = .ok t) ↔ 3 ≤ levels) ∧
      (∀ fault, g.buildOperator 2 "test" = .error fault → ∃ kind, fault = .tooDeep kind 2) ∧
      ∃ t, g.build 3 (.operator "test") = .ok t ∧ g.faultIn? t = none ∧
        g.build maxDepth (.operator "test") = .ok t := by
  intro g
  obtain ⟨hloaded, hbuilt⟩ := operatorDepth_eq_levels_built
  have htest : "test" ∈ g.names := by decide +kernel
  have hthree : (g.operatorDepth "test" []).map Prod.fst = .ok 3 := by decide +kernel
  obtain ⟨depth, hwalk, hlevels⟩ := hloaded Editor.logic _ g Prod.mk.eta.symm "test" htest
  -- from here on only what is known of the grammar counts
  clear_value g
  obtain ⟨known, hfirst, hknown⟩ := hwalk [] (known_nil g)
  obtain ⟨known', hsecond, _⟩ := hwalk known hknown
  rw [hfirst] at hthree
  obtain rfl : depth = 3 := Except.ok.inj hthree
  obtain ⟨t, ht⟩ := (hlevels 3).1.mpr le_rfl
  rw [buildOperator_eq htest] at ht
  obtain ⟨_, _, hshape, hmore⟩ := hbuilt g _ 3 t ht
  exact ⟨htest, ⟨known, known', hfirst, hsecond⟩, fun levels ↦ (hlevels levels).1,
    (hlevels 2).2.2, t, ht, hshape, hmore maxDepth (by decide)⟩

end FormulaEdit.Grammar
