import FormulaEdit.Proofs.Blame
import FormulaEdit.Proofs.Entry
import FormulaEdit.Proofs.Typed
import Mathlib.Data.List.Nodup

/-!
# What loading guarantees

Each phase of loading goes through a list and either reports a member by an error or passes it on
(`Sifts`). What is passed on is a sublist, so each phase is described by the relation between what
is kept and where it comes from. Phase by phase these are `declare` on entries, `Drafted` on
declarations, and for the last phase the relation `Rounds`, which leaves out one draft after another
until the rest makes a grammar.

Composed, they say what a loaded grammar is (`Loaded`): its operators have distinct visible names,
its kinds are closed and are what the surviving expressions denote, and every operator can be built.
-/

namespace FormulaEdit

theorem sublistForall₂_comp {α β γ : Type} {R : α → β → Prop} {S : β → γ → Prop}
    {xs : List α} {ys : List β} {zs : List γ} (h : List.SublistForall₂ R xs ys)
    (h' : List.SublistForall₂ S ys zs) :
    List.SublistForall₂ (fun x z ↦ ∃ y, R x y ∧ S y z) xs zs := by
  induction h' generalizing xs with
  | nil =>
    cases h
    exact .nil
  | cons hS _ ih =>
    cases h with
    | nil => exact .nil
    | cons hR h => exact .cons ⟨_, hR, hS⟩ (ih h)
    | cons_right h => exact .cons_right (ih h)
  | cons_right _ ih => exact .cons_right (ih h)

theorem sublistForall₂_of_sublist {α β : Type} {R : α → β → Prop} {xs ys : List α} {zs : List β}
    (hsub : xs.Sublist ys) (h : List.SublistForall₂ R ys zs) : List.SublistForall₂ R xs zs := by
  have heq : List.SublistForall₂ Eq xs ys :=
    List.sublistForall₂_iff.mpr ⟨xs, List.forall₂_refl xs, hsub⟩
  simpa using sublistForall₂_comp heq h

theorem exists_right_of_sublistForall₂ {α β : Type} {R : α → β → Prop} {xs : List α} {ys : List β}
    (h : List.SublistForall₂ R xs ys) {x : α} (hx : x ∈ xs) : ∃ y ∈ ys, R x y := by
  induction h with
  | nil => cases hx
  | cons hR _ ih =>
    rcases List.mem_cons.mp hx with rfl | hx
    · exact ⟨_, List.mem_cons_self, hR⟩
    · obtain ⟨y, hy, hR⟩ := ih hx
      exact ⟨y, List.mem_cons_of_mem _ hy, hR⟩
  | cons_right _ ih =>
    obtain ⟨y, hy, hR⟩ := ih hx
    exact ⟨y, List.mem_cons_of_mem _ hy, hR⟩

theorem map_eq_map_of_forall₂ {α β γ : Type} {R : α → β → Prop} {f : α → γ} {f' : β → γ}
    {xs : List α} {ys : List β} (h : List.Forall₂ R xs ys) (heq : ∀ x y, R x y → f x = f' y) :
    xs.map f = ys.map f' := by
  induction h with
  | nil => rfl
  | cons hR _ ih => rw [List.map_cons, List.map_cons, ih, heq _ _ hR]

/-! ## Sifting -/

/-- Each member of a list is reported by an error or kept in another form. -/
inductive Sifts {α ε β : Type} (E : α → ε → Prop) (R : α → β → Prop) :
    List α → List ε → List β → Prop
  | nil : Sifts E R [] [] []
  | report {x : α} {error : ε} {xs : List α} {errors : List ε} {ys : List β} (h : E x error)
      (rest : Sifts E R xs errors ys) : Sifts E R (x :: xs) (error :: errors) ys
  | keep {x : α} {y : β} {xs : List α} {errors : List ε} {ys : List β} (h : R x y)
      (rest : Sifts E R xs errors ys) : Sifts E R (x :: xs) errors (y :: ys)

namespace Sifts

variable {α β γ ε : Type} {E : α → ε → Prop} {R : α → β → Prop} {xs : List α} {errors : List ε}
  {ys : List β}

theorem length_eq (h : Sifts E R xs errors ys) : errors.length + ys.length = xs.length := by
  induction h with
  | nil => rfl
  | report _ _ ih =>
    rw [List.length_cons, List.length_cons]
    omega
  | keep _ _ ih =>
    rw [List.length_cons, List.length_cons]
    omega

theorem imp {E' : α → ε → Prop} {R' : α → β → Prop} (h : Sifts E R xs errors ys)
    (hE : ∀ x error, E x error → E' x error) (hR : ∀ x y, R x y → R' x y) :
    Sifts E' R' xs errors ys := by
  induction h with
  | nil => exact .nil
  | report hx _ ih => exact .report (hE _ _ hx) ih
  | keep hx _ ih => exact .keep (hR _ _ hx) ih

theorem sublist (h : Sifts E R xs errors ys) : List.SublistForall₂ (fun y x ↦ R x y) ys xs := by
  induction h with
  | nil => exact .nil
  | report _ _ ih => exact .cons_right ih
  | keep hx _ ih => exact .cons hx ih

theorem forall₂_of_nil (h : Sifts E R xs ([] : List ε) ys) : List.Forall₂ R xs ys := by
  generalize hnone : ([] : List ε) = errors at h
  induction h with
  | nil => exact .nil
  | report => cases hnone
  | keep hx _ ih => exact .cons hx (ih hnone)

theorem of_forall₂ (h : List.Forall₂ R xs ys) : Sifts E R xs [] ys := by
  induction h with
  | nil => exact .nil
  | cons hx _ ih => exact .keep hx ih

/-- One more member that is reported, anywhere in the list. -/
theorem insert {x : α} {error : ε} {before after : List α}
    (h : Sifts E R (before ++ after) errors ys) (hx : E x error) :
    ∃ reports, reports.Perm (error :: errors) ∧ Sifts E R (before ++ x :: after) reports ys := by
  induction before generalizing errors ys with
  | nil => exact ⟨_, .refl _, .report hx h⟩
  | cons b before ih =>
    cases h with
    | @report _ first _ rest _ hb h =>
      obtain ⟨reports, hperm, hsifts⟩ := ih h
      exact ⟨first :: reports, (hperm.cons first).trans (.swap _ _ _), .report hb hsifts⟩
    | keep hb h =>
      obtain ⟨reports, hperm, hsifts⟩ := ih h
      exact ⟨reports, hperm, .keep hb hsifts⟩

/-- **Two phases one after the other are one phase**, which reports what either reports. -/
theorem comp {E' : β → ε → Prop} {R' : β → γ → Prop} {errors' : List ε} {zs : List γ}
    (h : Sifts E R xs errors ys) (h' : Sifts E' R' ys errors' zs) :
    ∃ reports, reports.Perm (errors ++ errors') ∧
      Sifts (fun x error ↦ E x error ∨ ∃ y, R x y ∧ E' y error) (fun x z ↦ ∃ y, R x y ∧ R' y z)
        xs reports zs := by
  induction h generalizing errors' zs with
  | nil =>
    cases h'
    exact ⟨[], .refl _, .nil⟩
  | @report x error _ _ _ hx _ ih =>
    obtain ⟨reports, hperm, hsifts⟩ := ih h'
    exact ⟨error :: reports, hperm.cons error, .report (Or.inl hx) hsifts⟩
  | @keep x y _ _ _ hx _ ih =>
    cases h' with
    | @report _ error _ _ _ hy h' =>
      obtain ⟨reports, hperm, hsifts⟩ := ih h'
      exact ⟨error :: reports, (hperm.cons error).trans List.perm_middle.symm,
        .report (Or.inr ⟨y, hx, hy⟩) hsifts⟩
    | keep hy h' =>
      obtain ⟨reports, hperm, hsifts⟩ := ih h'
      exact ⟨reports, hperm, .keep ⟨y, hx, hy⟩ hsifts⟩

theorem sublist_of_zipIdx {E' : α × Nat → ε → Prop}
    (h : Sifts E' (fun x y ↦ R x.1 y) xs.zipIdx errors ys) :
    List.SublistForall₂ (fun y x ↦ R x y) ys xs := by
  have hkept : List.SublistForall₂ (fun y x ↦ R x y) ys (xs.zipIdx.map Prod.fst) :=
    List.sublistForall₂_map_right_iff.mpr h.sublist
  rwa [List.zipIdx_map_fst] at hkept

end Sifts

namespace Grammar

/-! ## Entries -/

theorem firstBadArgument_eq_none {seen : List String} {args : List (Argument String)}
    (h : firstBadArgument seen args = none) :
    (∀ arg ∈ args, arg.name ≠ "" ∧ arg.name ∉ seen) ∧ (args.map (·.name)).Nodup := by
  induction args generalizing seen with
  | nil => simp
  | cons arg args ih =>
    rw [firstBadArgument] at h
    split at h
    · cases h
    · next hgood =>
      simp only [Bool.or_eq_true, String.isEmpty_iff, List.contains_iff_mem, not_or] at hgood
      obtain ⟨hrest, hnodup⟩ := ih h
      refine ⟨fun other hother ↦ ?_, ?_⟩
      · rcases List.mem_cons.mp hother with rfl | hother
        · exact hgood
        · obtain ⟨hne, hnot⟩ := hrest other hother
          exact ⟨hne, fun hseen ↦ hnot (List.mem_cons_of_mem _ hseen)⟩
      · rw [List.map_cons, List.nodup_cons]
        refine ⟨fun hmem ↦ ?_, hnodup⟩
        obtain ⟨other, hother, hname⟩ := List.mem_map.mp hmem
        exact (hrest other hother).2 (hname ▸ List.mem_cons_self)

/-- A declared operator is what the entry says. It has a visible name, and its arguments have
distinct names. -/
theorem declare_eq_ok {entry : Json} {op : Declaration} (h : declare entry = .ok op) :
    Describes entry op ∧ (∃ c ∈ op.name.toList, Text.isBlank c = false) ∧
      (∀ arg ∈ op.args, arg.name ≠ "") ∧ (op.args.map (·.name)).Nodup := by
  rw [declare] at h
  split at h
  · cases h
  · next hdecode =>
    split at h
    · cases h
    · next hvisible =>
      split at h
      · split at h <;> cases h
      · next hargs =>
        cases h
        obtain ⟨hnamed, hnodup⟩ := firstBadArgument_eq_none hargs
        rw [List.isEmpty_iff, Text.trim_eq_nil_iff] at hvisible
        simp only [not_forall, Bool.not_eq_true, exists_prop] at hvisible
        exact ⟨describes_of_decode hdecode, hvisible, fun arg harg ↦ (hnamed arg harg).1, hnodup⟩

/-- An entry at a position that declares no new operator, and the error that it is reported by. -/
inductive Refused (items : List Json) : Json × Nat → GrammarError → Prop
  /-- It declares nothing. -/
  | malformed {entry : Json} {fault : EntryFault} (index : Nat)
      (refused : declare entry = .error fault) :
      Refused items (entry, index) (.malformedOperator index fault)
  /-- An earlier entry declares an operator of the same name. -/
  | duplicate {entry other : Json} {index : Nat} {op op' : Declaration}
      (declares : declare entry = .ok op) (earlier : other ∈ items.take index)
      (taken : declare other = .ok op') (same : op'.name = op.name) :
      Refused items (entry, index) (.duplicateOperator op.name)

theorem declareAll_sifts {all before items : List Json} {taken : List String}
    (hall : all = before ++ items)
    (htaken : ∀ name ∈ taken, ∃ other ∈ before, ∃ op, declare other = .ok op ∧ op.name = name) :
    Sifts (Refused all) (fun entry op ↦ declare entry.1 = .ok op) (items.zipIdx before.length)
      (declareAll taken before.length items).1 (declareAll taken before.length items).2 := by
  induction items generalizing before taken with
  | nil => exact .nil
  | cons entry items ih =>
    have hall' : all = (before ++ [entry]) ++ items := by
      rw [hall, List.append_assoc, List.singleton_append]
    have hlength : (before ++ [entry]).length = before.length + 1 := List.length_append
    have hmore : ∀ name ∈ taken, ∃ other ∈ before ++ [entry], ∃ op,
        declare other = .ok op ∧ op.name = name := by
      intro name hname
      obtain ⟨other, hother, hop⟩ := htaken name hname
      exact ⟨other, List.mem_append_left _ hother, hop⟩
    rw [declareAll, List.zipIdx_cons]
    cases hdeclare : declare entry with
    | error fault =>
      have hrest := ih hall' hmore
      rw [hlength] at hrest
      exact .report (.malformed _ hdeclare) hrest
    | ok op =>
      dsimp only
      split_ifs with hname
      · have hrest := ih hall' hmore
        rw [hlength] at hrest
        obtain ⟨other, hother, op', hop', hsame⟩ := htaken _ (List.contains_iff_mem.mp hname)
        have hearlier : other ∈ all.take before.length := by
          rw [hall, List.take_left]
          exact hother
        exact .report (.duplicate hdeclare hearlier hop' hsame) hrest
      · have hnow : ∀ name ∈ op.name :: taken, ∃ other ∈ before ++ [entry], ∃ op,
            declare other = .ok op ∧ op.name = name :=
          List.forall_mem_cons.mpr ⟨⟨entry, by simp, op, hdeclare, rfl⟩, hmore⟩
        have hrest := ih hall' hnow
        rw [hlength] at hrest
        exact .keep hdeclare hrest

theorem declareAll_sifts_all (items : List Json) :
    Sifts (Refused items) (fun entry op ↦ declare entry.1 = .ok op) items.zipIdx
      (declareAll [] 0 items).1 (declareAll [] 0 items).2 :=
  declareAll_sifts (List.nil_append items).symm fun _ h ↦ absurd h List.not_mem_nil

theorem declareAll_nodup (taken : List String) (index : Nat) (items : List Json) :
    ((declareAll taken index items).2.map (·.name)).Nodup ∧
      ∀ op ∈ (declareAll taken index items).2, op.name ∉ taken := by
  induction items generalizing taken index with
  | nil => simp [declareAll]
  | cons entry items ih =>
    rw [declareAll]
    split
    · exact ih taken (index + 1)
    · next op hop =>
      split
      · exact ih taken (index + 1)
      · next hfresh =>
        obtain ⟨hnodup, hrest⟩ := ih (op.name :: taken) (index + 1)
        rw [List.contains_iff_mem] at hfresh
        refine ⟨?_, fun other hother ↦ ?_⟩
        · rw [List.map_cons, List.nodup_cons]
          refine ⟨fun hmem ↦ ?_, hnodup⟩
          obtain ⟨other, hother, hname⟩ := List.mem_map.mp hmem
          exact hrest other hother (hname ▸ List.mem_cons_self)
        · rcases List.mem_cons.mp hother with rfl | hother
          · exact hfresh
          · exact fun hmem ↦ hrest other hother (List.mem_cons_of_mem _ hmem)

/-! ## Drafts -/

/-- A draft of a declaration: the same operator, with the kinds of its arguments read. -/
def Drafted (draft : Draft) (op : Declaration) : Prop :=
  draft.name = op.name ∧ draft.returns = op.returns ∧
    List.Forall₂ (fun arg written ↦ arg.name = written.name ∧ arg.initial = written.initial ∧
      KindExpr.read written.kind = .ok arg.kind) draft.args op.args

theorem draftArgs_eq_ok {operator : String} {written : List (Argument String)}
    {args : List (Argument KindExpr)} (h : draftArgs operator written = .ok args) :
    List.Forall₂ (fun arg written ↦ arg.name = written.name ∧ arg.initial = written.initial ∧
      KindExpr.read written.kind = .ok arg.kind) args written := by
  induction written generalizing args with
  | nil =>
    cases h
    exact .nil
  | cons arg written ih =>
    rw [draftArgs] at h
    split at h
    · cases h
    · next kind hkind =>
      split at h
      · cases h
      · next rest hrest =>
        cases h
        exact .cons ⟨rfl, rfl, hkind⟩ (ih hrest)

theorem draftAll_sifts (ops : List Declaration) :
    Sifts (fun op error ↦ draftArgs op.name op.args = .error error)
      (fun op draft ↦ Drafted draft op) ops (draftAll ops).1 (draftAll ops).2 := by
  induction ops with
  | nil => exact .nil
  | cons op ops ih =>
    cases hargs : draftArgs op.name op.args with
    | error error =>
      simp only [draftAll, hargs]
      exact .report hargs ih
    | ok args =>
      simp only [draftAll, hargs]
      exact .keep ⟨rfl, rfl, draftArgs_eq_ok hargs⟩ ih

def drafted (items : List Json) : List Draft :=
  (draftAll (declareAll [] 0 items).2).2

theorem ofEntries_snd (items : List Json) : (ofEntries items).2 = (settle (drafted items)).2 :=
  rfl

/-- A draft of what an entry declares, which is what the entry says. -/
def Declares (draft : Draft) (entry : Json) : Prop :=
  ∃ op, Drafted draft op ∧ declare entry = .ok op ∧ Describes entry op

theorem Declares.wellNamed {draft : Draft} {entry : Json} (h : Declares draft entry) :
    (∃ c ∈ draft.name.toList, Text.isBlank c = false) ∧
      (∀ arg ∈ draft.args, arg.name ≠ "" ∧ arg.kind.Proper) ∧
      (draft.args.map (·.name)).Nodup := by
  obtain ⟨op, ⟨hname, _, hargs⟩, hdeclare, _⟩ := h
  obtain ⟨_, hvisible, hnamed, hnodup⟩ := declare_eq_ok hdeclare
  rw [hname]
  refine ⟨hvisible, fun arg harg ↦ ?_, ?_⟩
  · obtain ⟨written, hwritten, hsame, _, hread⟩ := exists_left_of_forall₂ hargs.flip harg
    rw [hsame]
    exact ⟨hnamed written hwritten, KindExpr.read_proper hread⟩
  · rwa [map_eq_map_of_forall₂ hargs fun _ _ h ↦ h.1]

theorem drafted_sublist (items : List Json) :
    List.SublistForall₂ Declares (drafted items) items := by
  have hdeclared := (declareAll_sifts_all items).imp (fun _ _ ↦ id) fun _ _ hdeclare ↦
    And.intro hdeclare (declare_eq_ok hdeclare).1
  exact sublistForall₂_comp (draftAll_sifts _).sublist (Sifts.sublist_of_zipIdx hdeclared)

theorem drafted_nodup (items : List Json) : ((drafted items).map (·.name)).Nodup := by
  obtain ⟨ops, hops, hsub⟩ :=
    List.sublistForall₂_iff.mp (draftAll_sifts (declareAll [] 0 items).2).sublist
  have hnames : (drafted items).map (·.name) = ops.map (·.name) :=
    map_eq_map_of_forall₂ hops fun _ _ h ↦ h.1
  rw [hnames]
  exact (declareAll_nodup [] 0 items).1.sublist (hsub.map _)

/-! ## Settling -/

/-- The ways in which a draft keeps the live ones from being a grammar: it denotes nothing, or all
denote something but its default depth is out of bounds. -/
def Offends (live : List Draft) (draft : Draft) : Prop :=
  (∀ op, ¬LowersOperator live draft op) ∨
    ∃ ops, List.Forall₂ (LowersOperator live) live ops ∧
      ∀ n ≤ maxDepth, ¬HasDepth ⟨ops⟩ (.operator draft.name) n

theorem names_of_lowers {live drafts : List Draft} {ops : List (Operator Kind)}
    (h : List.Forall₂ (LowersOperator live) drafts ops) :
    ops.map (·.name) = drafts.map (·.name) :=
  (map_eq_map_of_forall₂ h fun _ _ hop ↦ hop.1.symm).symm

theorem assemble_eq_ok {declared : List String} {live : List Draft} {g : Grammar}
    (h : assemble declared live = .ok g) :
    List.Forall₂ (LowersOperator live) live g.operators ∧
      ∀ name ∈ g.names, ∃ n ≤ maxDepth, g.HasDepth (.operator name) n := by
  rw [assemble] at h
  split at h
  · split at h <;> cases h
  · next ops hops =>
    simp only at h
    split at h
    · cases h
    · next hendless =>
      cases h
      refine ⟨resolveDrafts_eq_ok_iff.mp hops, fun name hname ↦ ?_⟩
      obtain ⟨op, hop, rfl⟩ := List.mem_map.mp hname
      exact hasDepth_of_firstEndless_eq_none (known_nil _) hendless op hop

/-- What keeps drafts from being a grammar: a name that stands for nothing, declared once or never,
or an operator without a default depth within bounds. -/
theorem assemble_error_cases {declared : List String} {live : List Draft} {offence : Offence}
    (h : assemble declared live = .error offence) :
    (∃ operator argument word, resolveDrafts live live = .error ⟨operator, argument, word⟩ ∧
      word ∈ declared ∧ offence = ⟨operator, .missingOperator operator argument word⟩) ∨
    (∃ operator argument word, resolveDrafts live live = .error ⟨operator, argument, word⟩ ∧
      word ∉ declared ∧ offence = ⟨operator, .unknownKind operator argument word⟩) ∨
    ∃ ops operator fault, resolveDrafts live live = .ok ops ∧
      firstEndless ⟨ops⟩ ops [] = some (operator, fault) ∧
      offence = ⟨operator, .uninstantiable operator fault⟩ := by
  rw [assemble] at h
  split at h
  · next operator argument word hresolve =>
    by_cases hdeclared : declared.contains word = true
    · rw [if_pos hdeclared] at h
      rw [List.contains_iff_mem] at hdeclared
      exact Or.inl ⟨operator, argument, word, hresolve, hdeclared, (Except.error.inj h).symm⟩
    · rw [if_neg hdeclared] at h
      rw [List.contains_iff_mem] at hdeclared
      exact Or.inr (Or.inl
        ⟨operator, argument, word, hresolve, hdeclared, (Except.error.inj h).symm⟩)
  · next ops hops =>
    dsimp only at h
    split at h
    · next operator fault hendless =>
      exact Or.inr (Or.inr ⟨ops, operator, fault, hops, hendless, (Except.error.inj h).symm⟩)
    · cases h

theorem assemble_eq_error {declared : List String} {live : List Draft} {offence : Offence}
    (h : assemble declared live = .error offence) :
    ∃ draft ∈ live, draft.name = offence.operator ∧ Offends live draft := by
  rcases assemble_error_cases h with ⟨operator, _, _, hresolve, _, rfl⟩ |
    ⟨operator, _, _, hresolve, _, rfl⟩ | ⟨ops, operator, fault, hops, hendless, rfl⟩
  · obtain ⟨draft, hmem, hname, hnone⟩ := resolveDrafts_eq_error hresolve
    exact ⟨draft, hmem, hname, Or.inl hnone⟩
  · obtain ⟨draft, hmem, hname, hnone⟩ := resolveDrafts_eq_error hresolve
    exact ⟨draft, hmem, hname, Or.inl hnone⟩
  · obtain ⟨⟨op, hop, hname⟩, hdepth⟩ :=
      not_hasDepth_of_firstEndless_eq_some (known_nil _) hendless
    have hlowers := resolveDrafts_eq_ok_iff.mp hops
    have hmem : operator ∈ live.map (·.name) :=
      names_of_lowers hlowers ▸ hname ▸ List.mem_map_of_mem hop
    obtain ⟨draft, hdraft, rfl⟩ := List.mem_map.mp hmem
    exact ⟨draft, hdraft, rfl, Or.inr ⟨ops, hlowers, hdepth⟩⟩

/-- Leaving out one draft after another, each the one that keeps the rest from being a grammar, with
the errors that they are reported by. -/
inductive Rounds (declared : List String) : List Draft → List GrammarError → List Draft → Prop
  | refl (live : List Draft) : Rounds declared live [] live
  | drop {live final : List Draft} {offence : Offence} {errors : List GrammarError}
      (blamed : assemble declared live = .error offence)
      (h : Rounds declared (live.filter (·.name ≠ offence.operator)) errors final) :
      Rounds declared live (offence.error :: errors) final

/-- The same, whatever the errors. -/
def Settles (declared : List String) (live final : List Draft) : Prop :=
  ∃ errors, Rounds declared live errors final

section Rounds

variable {declared : List String} {live final : List Draft} {errors : List GrammarError}

theorem Rounds.sublist (h : Rounds declared live errors final) : final.Sublist live := by
  induction h with
  | refl live => exact .refl live
  | drop _ _ ih => exact ih.trans List.filter_sublist

theorem Settles.sublist (h : Settles declared live final) : final.Sublist live := by
  obtain ⟨errors, hrounds⟩ := h
  exact hrounds.sublist

theorem Settles.exists_round (h : Settles declared live final) {draft : Draft} (hmem : draft ∈ live)
    (hdropped : draft ∉ final) :
    ∃ round offence, Settles declared live round ∧ draft ∈ round ∧ final.Sublist round ∧
      assemble declared round = .error offence ∧ offence.operator = draft.name := by
  obtain ⟨errors, hrounds⟩ := h
  induction hrounds with
  | refl live => exact absurd hmem hdropped
  | @drop live final offence errors blamed hrest ih =>
    by_cases hname : offence.operator = draft.name
    · have hkept : final.Sublist live := hrest.sublist.trans List.filter_sublist
      exact ⟨live, offence, ⟨[], .refl live⟩, hmem, hkept, blamed, hname⟩
    · have hlater : draft ∈ live.filter (·.name ≠ offence.operator) :=
        List.mem_filter.mpr ⟨hmem, by simpa using Ne.symm hname⟩
      obtain ⟨round, other, ⟨earlier, hearlier⟩, hround⟩ := ih hlater hdropped
      exact ⟨round, other, ⟨_, .drop blamed hearlier⟩, hround⟩

theorem settleWithin_rounds {fuel : Nat} (hfuel : live.length < fuel) :
    ∃ final, Rounds declared live (settleWithin declared fuel live).1 final ∧
      assemble declared final = .ok (settleWithin declared fuel live).2 := by
  induction fuel generalizing live with
  | zero => omega
  | succ fuel ih =>
    cases hround : assemble declared live with
    | ok g =>
      simp only [settleWithin, hround]
      exact ⟨live, .refl live, hround⟩
    | error offence =>
      obtain ⟨draft, hmem, hname, _⟩ := assemble_eq_error hround
      -- the blamed draft is live, so each round is shorter than the one before
      have hshorter : (live.filter (·.name ≠ offence.operator)).length < live.length :=
        List.length_filter_lt_length_iff_exists.mpr ⟨draft, hmem, by simp [hname]⟩
      obtain ⟨final, hrounds, hfinal⟩ := ih (hshorter.trans_le (Nat.le_of_lt_succ hfuel))
      simp only [settleWithin, hround]
      exact ⟨final, .drop hround hrounds, hfinal⟩

end Rounds

theorem settle_rounds (drafts : List Draft) :
    ∃ final, Rounds (declaredNames drafts) drafts (settle drafts).1 final ∧
      assemble (declaredNames drafts) final = .ok (settle drafts).2 :=
  settleWithin_rounds (Nat.lt_succ_self drafts.length)

/-- **Settling ends in a grammar.** The survivors all denote operators, and each of these has a
default depth within bounds. -/
theorem settle_spec (drafts : List Draft) :
    ∃ final, Settles (declaredNames drafts) drafts final ∧
      List.Forall₂ (LowersOperator final) final (settle drafts).2.operators ∧
      ∀ name ∈ (settle drafts).2.names, ∃ n ≤ maxDepth,
        (settle drafts).2.HasDepth (.operator name) n := by
  obtain ⟨final, hrounds, hfinal⟩ := settle_rounds drafts
  exact ⟨final, ⟨_, hrounds⟩, assemble_eq_ok hfinal⟩

/-! ## Loaded grammars -/

/-- The entry of an operator with arguments of the given names and kinds. -/
def entry (name : String) (returns : Option String) (args : List (String × String)) : Json :=
  .obj [("name", .str name), ("returns", (returns.map Json.str).getD .null),
    ("args", .arr (args.map fun (arg, kind) ↦ .obj [("name", .str arg), ("kind", .str kind)]))]

/-- The entries of a description, none if it has no list of them. -/
def entriesOf (description : Json) : List Json :=
  (entries description).toOption.getD []

theorem ofJson_snd (description : Json) :
    (ofJson description).2 = (ofEntries (entriesOf description)).2 := by
  rw [ofJson, entriesOf]
  cases entries description with
  | ok items => rfl
  | error fault => rfl

theorem ofJson_survivors (description : Json) :
    let drafts := drafted (entriesOf description)
    ∃ survivors, Settles (declaredNames drafts) drafts survivors ∧
      List.Forall₂ (LowersOperator survivors) survivors (ofJson description).2.operators := by
  rw [ofJson_snd, ofEntries_snd]
  obtain ⟨final, hsettles, hlowers, _⟩ := settle_spec (drafted (entriesOf description))
  exact ⟨final, hsettles, hlowers⟩

theorem ofJson_hasDepth (description : Json) :
    ∀ name ∈ (ofJson description).2.names, ∃ n ≤ maxDepth,
      (ofJson description).2.HasDepth (.operator name) n := by
  rw [ofJson_snd, ofEntries_snd]
  obtain ⟨_, _, _, hdepth⟩ := settle_spec (drafted (entriesOf description))
  exact hdepth

theorem ofJson_nodup (description : Json) : (ofJson description).2.names.Nodup := by
  obtain ⟨survivors, hsettles, hlowers⟩ := ofJson_survivors description
  rw [names, names_of_lowers hlowers]
  exact (drafted_nodup _).sublist (hsettles.sublist.map _)

theorem exists_draft_of_mem {items : List Json} {survivors : List Draft} {g : Grammar}
    (hsub : survivors.Sublist (drafted items))
    (hlowers : List.Forall₂ (LowersOperator survivors) survivors g.operators)
    {op : Operator Kind} (hop : op ∈ g.operators) :
    ∃ draft entry, Declares draft entry ∧ LowersOperator survivors draft op := by
  obtain ⟨draft, hdraft, hlowered⟩ := exists_left_of_forall₂ hlowers hop
  obtain ⟨entry, _, hdeclares⟩ :=
    exists_right_of_sublistForall₂ (drafted_sublist items) (hsub.subset hdraft)
  exact ⟨draft, entry, hdeclares, hlowered⟩

theorem mem_names_iff_has {g : Grammar} {name : String} : name ∈ g.names ↔ g.has name = true := by
  simp [names, has, find?]

theorem exists_buildOperator {g : Grammar} {name : String} (hname : name ∈ g.names)
    (hdepth : ∃ n ≤ maxDepth, g.HasDepth (.operator name) n) :
    ∃ t, g.buildOperator maxDepth name = .ok t ∧ t.depth ≤ maxDepth := by
  obtain ⟨t, ht⟩ := build_isOk_iff.mpr hdepth
  refine ⟨t, ?_, buildWithin_depth_le ht⟩
  rw [buildOperator, if_pos (mem_names_iff_has.mp hname), ht]

/-- **What loading guarantees** of the grammar of a list of entries. -/
structure Loaded (items : List Json) (g : Grammar) : Prop where
  /-- Operators have distinct names. -/
  names_nodup : g.names.Nodup
  /-- No name is blank. -/
  names_visible : ∀ name ∈ g.names, ∃ c ∈ name.toList, Text.isBlank c = false
  /-- The arguments of an operator have distinct names, none of them empty. -/
  args_named : ∀ op ∈ g.operators,
    (∀ arg ∈ op.args, arg.name ≠ "") ∧ (op.args.map (·.name)).Nodup
  /-- Wherever a kind occurs in that of an argument, an operator is one of the grammar and a union
  has a variant. -/
  closed : ∀ op ∈ g.operators, ∀ arg ∈ op.args, ∀ kind : Kind, kind.Within arg.kind →
    (∀ name, kind = .operator name → name ∈ g.names) ∧ kind ≠ .union []
  /-- The operators are what some of the entries declare, with kinds that denote what they say among
  exactly these. A draft that is missing offends among some of the drafts that include them. -/
  denoted : ∃ survivors, List.SublistForall₂ Declares survivors items ∧
    (∀ draft ∈ drafted items, draft ∉ survivors →
      ∃ live, survivors.Sublist live ∧ live.Sublist (drafted items) ∧ draft ∈ live ∧
        Offends live draft) ∧
    List.Forall₂ (LowersOperator survivors) survivors g.operators
  /-- Every operator can be built within the bound on levels. -/
  built : ∀ name ∈ g.names, ∃ t, g.buildOperator maxDepth name = .ok t ∧ t.depth ≤ maxDepth

/-- **Loading is sound**, whatever the description. -/
theorem ofJson_loaded (description : Json) :
    Loaded (entriesOf description) (ofJson description).2 := by
  obtain ⟨survivors, hsettles, hlowers⟩ := ofJson_survivors description
  have hsub := hsettles.sublist
  have hnames := names_of_lowers hlowers
  have horigin : ∀ op ∈ (ofJson description).2.operators, ∃ draft entry,
      Declares draft entry ∧ LowersOperator survivors draft op :=
    fun _ ↦ exists_draft_of_mem hsub hlowers
  refine ⟨ofJson_nodup description, fun name hname ↦ ?_, fun op hop ↦ ?_, ?_, ?_, ?_⟩
  · obtain ⟨op, hop, rfl⟩ := List.mem_map.mp hname
    obtain ⟨draft, entry, hdeclares, hlowered⟩ := horigin op hop
    rw [hlowered.1]
    exact hdeclares.wellNamed.1
  · obtain ⟨draft, entry, hdeclares, _, _, hargs⟩ := horigin op hop
    obtain ⟨_, hnamed, hnodup⟩ := hdeclares.wellNamed
    refine ⟨fun arg harg ↦ ?_, ?_⟩
    · obtain ⟨written, hwritten, hname, _⟩ := exists_left_of_forall₂ hargs harg
      rw [hname]
      exact (hnamed written hwritten).1
    · rwa [← map_eq_map_of_forall₂ hargs fun _ _ h ↦ h.1.symm]
  · intro op hop arg harg kind hkind
    obtain ⟨draft, entry, hdeclares, _, _, hargs⟩ := horigin op hop
    obtain ⟨written, hwritten, _, _, hlowered⟩ := exists_left_of_forall₂ hargs harg
    rw [names, hnames]
    exact hlowered.closed (hdeclares.wellNamed.2.1 written hwritten).2 hkind
  · refine ⟨survivors, sublistForall₂_of_sublist hsub (drafted_sublist _), ?_, hlowers⟩
    intro draft hdraft hdropped
    obtain ⟨round, offence, hround, hmem, hkept, hblamed, hname⟩ :=
      hsettles.exists_round hdraft hdropped
    obtain ⟨blamed, hblamed, hsame, hoffends⟩ := assemble_eq_error hblamed
    obtain rfl : blamed = draft :=
      List.inj_on_of_nodup_map ((drafted_nodup _).sublist (hround.sublist.map _)) hblamed hmem
        (hsame.trans hname)
    exact ⟨round, hkept, hround.sublist, hmem, hoffends⟩
  · intro name hname
    exact exists_buildOperator hname (ofJson_hasDepth description name hname)

end Grammar

end FormulaEdit
