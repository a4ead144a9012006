import FormulaEdit.Proofs.Report

/-!
# Loading what was kept

What settles does so because of the operators that are left, not because of those that went. So the
entries of a grammar's operators, loaded on their own, give the same grammar and no error.

The argument goes phase by phase. The entries declare the operators that they declared before, since
an entry that was first to take a name still is. They have the same drafts. These drafts are the
survivors of the first settling, and they are settled as they stand: whether drafts make a grammar
depends on the drafts only, and not on the names that were declared at the start.
-/

namespace FormulaEdit.Grammar

/-- The entries that the operators of a grammar come from: of the entries that declare a name, the
first one, if the grammar has an operator of that name. The names already taken are given. -/
def origins (g : Grammar) (taken : List String) : List Json → List Json
  | [] => []
  | entry :: items =>
    match declare entry with
    | .error _ => origins g taken items
    | .ok op =>
      if taken.contains op.name then origins g taken items
      else if g.has op.name then entry :: origins g (op.name :: taken) items
      else origins g (op.name :: taken) items

section Phases

variable {g : Grammar}

theorem origins_sublist (taken : List String) (items : List Json) :
    (origins g taken items).Sublist items := by
  induction items generalizing taken with
  | nil => exact .slnil
  | cons entry items ih =>
    rw [origins]
    split
    · exact (ih taken).cons entry
    · split_ifs
      · exact (ih taken).cons entry
      · exact (ih _).cons_cons entry
      · exact (ih _).cons entry

/-- The origins declare the operators of the grammar's names, as all entries do. -/
theorem origins_declare (taken : List String) (index : Nat) (items : List Json) :
    List.Forall₂ (fun entry op ↦ declare entry = .ok op) (origins g taken items)
      ((declareAll taken index items).2.filter fun op ↦ g.has op.name) := by
  induction items generalizing taken index with
  | nil => exact .nil
  | cons entry items ih =>
    rw [origins, declareAll]
    cases hdeclare : declare entry with
    | error fault => exact ih taken (index + 1)
    | ok op =>
      dsimp only
      by_cases htaken : taken.contains op.name = true
      · rw [if_pos htaken, if_pos htaken]
        exact ih taken (index + 1)
      · rw [if_neg htaken, if_neg htaken]
        by_cases hhas : g.has op.name = true
        · rw [if_pos hhas, List.filter_cons, if_pos hhas]
          exact .cons hdeclare (ih (op.name :: taken) (index + 1))
        · rw [if_neg hhas, List.filter_cons, if_neg hhas]
          exact ih (op.name :: taken) (index + 1)

theorem declareAll_of_forall₂ {entries : List Json} {ops : List Declaration} {taken : List String}
    {index : Nat} (h : List.Forall₂ (fun entry op ↦ declare entry = .ok op) entries ops)
    (hnodup : (ops.map (·.name)).Nodup) (hfree : ∀ op ∈ ops, op.name ∉ taken) :
    declareAll taken index entries = ([], ops) := by
  induction h generalizing taken index with
  | nil => rfl
  | @cons entry op entries ops hdeclare _ ih =>
    rw [List.map_cons, List.nodup_cons] at hnodup
    have hfresh : ¬taken.contains op.name = true := by
      rw [List.contains_iff_mem]
      exact hfree op List.mem_cons_self
    have hrest : ∀ other ∈ ops, other.name ∉ op.name :: taken := by
      intro other hother hmem
      rcases List.mem_cons.mp hmem with hname | hmem
      · exact hnodup.1 (hname ▸ List.mem_map_of_mem hother)
      · exact hfree other (List.mem_cons_of_mem _ hother) hmem
    rw [declareAll, hdeclare]
    dsimp only
    rw [if_neg hfresh, ih hnodup.2 hrest]

theorem mem_draftAll_iff {ops : List Declaration} {draft : Draft} :
    draft ∈ (draftAll ops).2 ↔
      ∃ op ∈ ops, ∃ args, draftArgs op.name op.args = .ok args ∧ draft = { op with args } := by
  induction ops with
  | nil => simp [draftAll]
  | cons op ops ih =>
    cases hargs : draftArgs op.name op.args with
    | error error => simp [draftAll, hargs, ih]
    | ok args => simp [draftAll, hargs, ih]

theorem draftAll_filter {p : String → Bool} {ops : List Declaration}
    (h : ∀ op ∈ ops, p op.name = true → ∃ args, draftArgs op.name op.args = .ok args) :
    draftAll (ops.filter fun op ↦ p op.name) =
      ([], (draftAll ops).2.filter fun draft ↦ p draft.name) := by
  induction ops with
  | nil => rfl
  | cons op ops ih =>
    have hrest := ih fun other hother ↦ h other (List.mem_cons_of_mem _ hother)
    by_cases hp : p op.name = true
    · obtain ⟨args, hargs⟩ := h op List.mem_cons_self hp
      rw [List.filter_cons, if_pos hp]
      simp only [draftAll, hargs, hrest, List.filter_cons, if_pos hp]
    · rw [List.filter_cons, if_neg hp, hrest]
      cases hargs : draftArgs op.name op.args with
      | error error => simp only [draftAll, hargs]
      | ok args => simp only [draftAll, hargs, List.filter_cons, if_neg hp]

/-- Which names were declared matters to the errors only. -/
theorem assemble_congr {declared : List String} {live : List Draft}
    (h : assemble declared live = .ok g) (other : List String) : assemble other live = .ok g := by
  rw [assemble] at h ⊢
  cases hresolve : resolveDrafts live live with
  | error unresolved =>
    rw [hresolve] at h
    dsimp only at h
    split_ifs at h
  | ok operators =>
    rw [hresolve] at h
    exact h

theorem settle_of_assemble {declared : List String} {final : List Draft}
    (h : assemble declared final = .ok g) : settle final = ([], g) := by
  rw [settle, settleWithin, assemble_congr h]

end Phases

theorem filter_drafted_eq {drafts final : List Draft} {g : Grammar}
    (hnodup : (drafts.map (·.name)).Nodup) (hsub : final.Sublist drafts)
    (hlowers : List.Forall₂ (LowersOperator final) final g.operators) :
    drafts.filter (fun draft ↦ g.has draft.name) = final := by
  have hiff : ∀ draft ∈ drafts, g.has draft.name = true ↔ draft ∈ final :=
    fun draft ↦ has_iff_mem_survivors hnodup hsub hlowers
  rw [filter_eq_filter_of_sublist hsub (List.Nodup.of_map _ hnodup) fun draft hdraft ↦
    (hiff draft hdraft).mp]
  exact List.filter_eq_self.mpr fun draft hdraft ↦ (hiff draft (hsub.subset hdraft)).mpr hdraft

theorem ofEntries_origins (items : List Json) :
    ofEntries (origins (ofEntries items).2 [] items) = ([], (ofEntries items).2) := by
  obtain ⟨final, hrounds, hfinal⟩ := settle_rounds (drafted items)
  rw [ofEntries_snd]
  generalize (settle (drafted items)).2 = g at hfinal
  have hsub := hrounds.sublist
  have hlowers := (assemble_eq_ok hfinal).1
  have hkept := filter_drafted_eq (drafted_nodup items) hsub hlowers
  have hops := (declareAll_nodup [] 0 items).1
  -- what the grammar has was drafted, and by the declaration of that name
  have hdraftable : ∀ op ∈ (declareAll [] 0 items).2, g.has op.name = true →
      ∃ args, draftArgs op.name op.args = .ok args := by
    intro op hop hhas
    rw [← mem_names_iff_has, names, names_of_lowers hlowers] at hhas
    obtain ⟨draft, hdraft, hname⟩ := List.mem_map.mp hhas
    obtain ⟨other, hother, args, hargs, rfl⟩ := mem_draftAll_iff.mp (hsub.subset hdraft)
    obtain rfl : other = op := List.inj_on_of_nodup_map hops hother hop hname
    exact ⟨args, hargs⟩
  have hdeclared : declareAll [] 0 (origins g [] items) =
      ([], (declareAll [] 0 items).2.filter fun op ↦ g.has op.name) :=
    declareAll_of_forall₂ (origins_declare [] 0 items) (hops.sublist (List.filter_sublist.map _))
      fun _ _ ↦ List.not_mem_nil
  have hdrafted := draftAll_filter hdraftable
  rw [← drafted, hkept] at hdrafted
  simp only [ofEntries, hdeclared, hdrafted, settle_of_assemble hfinal, List.append_nil]

/-- **Loading is stable on its own result.** The operators of a grammar come from some of the
entries, in order and one from each. These entries alone are loaded without an error, and give the
same grammar. -/
theorem ofJson_origins (items : List Json) :
    let g := (ofJson (.arr items)).2
    let kept := origins g [] items
    kept.Sublist items ∧ List.Forall₂ (fun entry op ↦ ComesFrom op entry) kept g.operators ∧
      ofJson (.arr kept) = ([], g) := by
  intro g kept
  have hreload : ofEntries kept = ([], g) := ofEntries_origins items
  obtain ⟨reports, hreports, hsifts⟩ := ofEntries_sifts kept
  rw [hreload] at hreports hsifts
  rw [hreports.eq_nil] at hsifts
  have hcomes : List.Forall₂ (fun entry op ↦ ComesFrom op entry) (kept.zipIdx.map Prod.fst)
      g.operators := List.forall₂_map_left_iff.mpr hsifts.forall₂_of_nil
  rw [List.zipIdx_map_fst] at hcomes
  exact ⟨origins_sublist [] items, hcomes, hreload⟩

end FormulaEdit.Grammar
