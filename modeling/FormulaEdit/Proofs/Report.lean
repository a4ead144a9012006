import FormulaEdit.Proofs.Settle

/-!
# Every entry is kept or reported

Each phase of loading pairs every member of its list with exactly one error or exactly one result
(`Sifts`). That nothing is lost and nothing reported twice is a matter of composing the three phases
(`Sifts.comp`). For the last phase this is an induction on its rounds, each of which puts one draft
back among those that the later rounds sift (`Sifts.insert`).

The errors of the last phase come in the order of blame, not of declaration, and the errors of
different phases are put one after the other. So the errors are those of the entries in another
order, and this is the only place where a permutation is needed.
-/

namespace FormulaEdit

/-! ## What stays of an operator -/

def Argument.header {κ : Type} (arg : Argument κ) : Argument Unit := { arg with kind := () }

/-- An operator without the kinds of its arguments: its name and category, and the names and initial
texts of its arguments in order. -/
def Operator.header {κ : Type} (op : Operator κ) : Operator Unit :=
  { op with args := op.args.map Argument.header }

theorem Operator.header_eq_of_forall₂ {κ κ' : Type} {op : Operator κ} {op' : Operator κ'}
    {R : Argument κ → Argument κ' → Prop} (hname : op.name = op'.name)
    (hreturns : op.returns = op'.returns) (hargs : List.Forall₂ R op.args op'.args)
    (hR : ∀ arg arg', R arg arg' → arg.name = arg'.name ∧ arg.initial = arg'.initial) :
    op.header = op'.header := by
  have hheaders : op.args.map Argument.header = op'.args.map Argument.header := by
    refine map_eq_map_of_forall₂ hargs fun arg arg' h ↦ ?_
    rw [Argument.header, Argument.header, (hR arg arg' h).1, (hR arg arg' h).2]
  rw [header, header, hname, hreturns, hheaders]

theorem LowersOperator.header_eq {live : List Draft} {draft : Draft} {op : Operator Kind}
    (h : LowersOperator live draft op) : op.header = draft.header :=
  (Operator.header_eq_of_forall₂ h.1.symm h.2.1.symm h.2.2 fun _ _ harg ↦
    ⟨harg.1.symm, harg.2.1.symm⟩).symm

namespace Grammar

theorem Drafted.header_eq {draft : Draft} {op : Declaration} (h : Drafted draft op) :
    draft.header = op.header :=
  Operator.header_eq_of_forall₂ h.1 h.2.1 h.2.2 fun _ _ harg ↦ ⟨harg.1, harg.2.1⟩

/-- An operator that comes from an entry: what the entry declares and says, its kinds apart. -/
def ComesFrom (op : Operator Kind) (entry : Json) : Prop :=
  ∃ declared, declare entry = .ok declared ∧ Describes entry declared ∧
    op.header = declared.header

/-! ## The three phases -/

/-- A draft that is blamed in some round, and the error that it is reported by. -/
def Blamed (declared : List String) (live : List Draft) (draft : Draft) (error : GrammarError) :
    Prop :=
  ∃ before round, Rounds declared live before round ∧ draft ∈ round ∧
    assemble declared round = .error ⟨draft.name, error⟩

/-- The error that an entry at a position is reported by, and why. -/
inductive Reported (items : List Json) : Json × Nat → GrammarError → Prop
  /-- The entry declares no new operator. -/
  | refused {entry : Json × Nat} {error : GrammarError} (h : Refused items entry error) :
      Reported items entry error
  /-- A kind expression cannot be read. -/
  | unreadable {entry : Json} {index : Nat} {op : Declaration} {error : GrammarError}
      (declares : declare entry = .ok op) (refused : draftArgs op.name op.args = .error error) :
      Reported items (entry, index) error
  /-- The operator is blamed while the rest is settled. -/
  | blamed {entry : Json} {index : Nat} {draft : Draft} {error : GrammarError}
      (declares : Declares draft entry)
      (blamed : Blamed (declaredNames (drafted items)) (drafted items) draft error) :
      Reported items (entry, index) error

section Rounds

variable {declared : List String} {live final : List Draft} {errors : List GrammarError}

theorem Blamed.of_drop {offence : Offence} {draft : Draft} {error : GrammarError}
    (blamed : assemble declared live = .error offence)
    (h : Blamed declared (live.filter (·.name ≠ offence.operator)) draft error) :
    Blamed declared live draft error := by
  obtain ⟨before, round, hrounds, hround⟩ := h
  exact ⟨offence.error :: before, round, .drop blamed hrounds, hround⟩

theorem filter_name_ne {before after : List Draft} {draft : Draft}
    (hnodup : ((before ++ draft :: after).map (·.name)).Nodup) :
    (before ++ draft :: after).filter (·.name ≠ draft.name) = before ++ after := by
  rw [List.map_append, List.map_cons, List.nodup_middle, List.nodup_cons, ← List.map_append]
    at hnodup
  have hothers : ∀ other ∈ before ++ after, decide (other.name ≠ draft.name) = true := by
    intro other hother
    rw [decide_eq_true_eq]
    exact fun hname ↦ hnodup.1 (hname ▸ List.mem_map_of_mem hother)
  rw [List.filter_append, List.filter_cons_of_neg (by simp), ← List.filter_append,
    List.filter_eq_self.mpr hothers]

theorem Rounds.sifts (h : Rounds declared live errors final)
    (hnodup : (live.map (·.name)).Nodup) :
    ∃ reports, reports.Perm errors ∧ Sifts (Blamed declared live) Eq live reports final := by
  induction h with
  | refl live => exact ⟨[], .refl _, .of_forall₂ (List.forall₂_same.mpr fun _ _ ↦ rfl)⟩
  | @drop live final offence errors blamed _ ih =>
    obtain ⟨reports, hperm, hsifts⟩ := ih (hnodup.sublist (List.filter_sublist.map _))
    obtain ⟨draft, hdraft, hname, _⟩ := assemble_eq_error blamed
    obtain ⟨before, after, rfl⟩ := List.append_of_mem hdraft
    -- the others are sifted in later rounds, and the draft blamed now goes back to its place
    have hlater := hsifts.imp (fun _ _ ↦ Blamed.of_drop blamed) fun _ _ ↦ id
    rw [← hname, filter_name_ne hnodup] at hlater
    have hnow : Blamed declared (before ++ draft :: after) draft offence.error := by
      refine ⟨[], _, .refl _, hdraft, ?_⟩
      rw [hname]
      exact blamed
    obtain ⟨all, hall, hsifts⟩ := hlater.insert hnow
    exact ⟨all, hall.trans (hperm.cons _), hsifts⟩

theorem Rounds.exists_round (h : Rounds declared live errors final)
    {before after : List GrammarError} {error : GrammarError}
    (herrors : errors = before ++ error :: after) :
    ∃ round offence, Rounds declared live before round ∧
      assemble declared round = .error offence ∧ offence.error = error := by
  induction h generalizing before with
  | refl live => simp at herrors
  | @drop live final offence errors blamed _ ih =>
    rcases List.cons_eq_append_iff.mp herrors with ⟨rfl, hcons⟩ | ⟨before, rfl, hrest⟩
    · exact ⟨live, offence, .refl live, blamed, (List.cons.inj hcons).1.symm⟩
    · obtain ⟨round, other, hrounds, hround⟩ := ih hrest
      exact ⟨round, other, .drop blamed hrounds, hround⟩

end Rounds

theorem settle_sifts {drafts : List Draft} (hnodup : (drafts.map (·.name)).Nodup) :
    ∃ reports, reports.Perm (settle drafts).1 ∧
      Sifts (Blamed (declaredNames drafts) drafts) (fun draft op ↦ op.header = draft.header) drafts
        reports (settle drafts).2.operators := by
  obtain ⟨final, hrounds, hfinal⟩ := settle_rounds drafts
  obtain ⟨reports, hperm, hsifts⟩ := hrounds.sifts hnodup
  have hlowered : Sifts (fun _ _ ↦ False) (LowersOperator final) final ([] : List GrammarError)
      (settle drafts).2.operators := .of_forall₂ (assemble_eq_ok hfinal).1
  obtain ⟨all, hall, hsifts⟩ := hsifts.comp hlowered
  rw [List.append_nil] at hall
  refine ⟨all, hall.trans hperm, hsifts.imp ?_ ?_⟩
  · rintro draft error (h | ⟨_, _, h⟩)
    · exact h
    · exact h.elim
  · rintro draft op ⟨_, rfl, h⟩
    exact h.header_eq

theorem ofEntries_fst (items : List Json) :
    (ofEntries items).1 = (declareAll [] 0 items).1 ++ (draftAll (declareAll [] 0 items).2).1 ++
      (settle (drafted items)).1 :=
  rfl

/-- **Every entry is kept or reported**, by the three phases together. -/
theorem ofEntries_sifts (items : List Json) :
    ∃ reports, reports.Perm (ofEntries items).1 ∧
      Sifts (Reported items) (fun entry op ↦ ComesFrom op entry.1) items.zipIdx reports
        (ofEntries items).2.operators := by
  obtain ⟨early, hearly, hdrafted⟩ := (declareAll_sifts_all items).comp (draftAll_sifts _)
  obtain ⟨late, hlate, hsettled⟩ := settle_sifts (drafted_nodup items)
  obtain ⟨reports, hreports, hsifts⟩ := hdrafted.comp hsettled
  refine ⟨reports, ?_, hsifts.imp ?_ ?_⟩
  · rw [ofEntries_fst]
    exact hreports.trans (hearly.append hlate)
  · rintro ⟨entry, index⟩ error ((h | ⟨op, hop, h⟩) | ⟨draft, ⟨op, hop, hdraft⟩, h⟩)
    · exact .refused h
    · exact .unreadable hop h
    · exact .blamed ⟨op, hdraft, hop, (declare_eq_ok hop).1⟩ h
  · rintro ⟨entry, index⟩ op ⟨draft, ⟨declared, hdeclared, hdraft⟩, h⟩
    exact ⟨declared, hdeclared, (declare_eq_ok hdeclared).1, h.trans hdraft.header_eq⟩

/-! ## Names that stand for nothing -/

theorem mem_declaredNames_iff {drafts : List Draft} {word : String} :
    word ∈ declaredNames drafts ↔
      ∃ draft ∈ drafts, draft.name = word ∨ draft.returns = some word := by
  rw [declaredNames, List.mem_flatMap]
  simp only [List.mem_cons, Option.mem_toList, eq_comm (a := word)]

section Unbound

variable {declared : List String} {live : List Draft} {offence : Offence}
  {operator argument word : String}

theorem assemble_missing (h : assemble declared live = .error offence)
    (herror : offence.error = .missingOperator operator argument word) :
    word ∈ declared ∧ ∀ draft ∈ live, draft.name ≠ word ∧ draft.returns ≠ some word := by
  rcases assemble_error_cases h with ⟨_, _, word, hresolve, hdeclared, rfl⟩ |
    ⟨_, _, _, _, _, rfl⟩ | ⟨_, _, _, _, _, rfl⟩
  · obtain ⟨rfl, rfl, rfl⟩ := GrammarError.missingOperator.inj herror
    obtain ⟨_, hreturns, hname⟩ := resolveDrafts_dangling hresolve
    exact ⟨hdeclared, fun draft hdraft ↦ ⟨hname draft hdraft, hreturns draft hdraft⟩⟩
  · cases herror
  · cases herror

theorem assemble_unknown (h : assemble declared live = .error offence)
    (herror : offence.error = .unknownKind operator argument word) : word ∉ declared := by
  rcases assemble_error_cases h with ⟨_, _, _, _, _, rfl⟩ | ⟨_, _, _, _, hdeclared, rfl⟩ |
    ⟨_, _, _, _, _, rfl⟩
  · cases herror
  · obtain ⟨rfl, rfl, rfl⟩ := GrammarError.unknownKind.inj herror
    exact hdeclared
  · cases herror

end Unbound

/-! ## The account of a description -/

/-- **What the errors of a description account for.** -/
structure Accounted (items : List Json) (errors : List GrammarError) (g : Grammar) : Prop where
  /-- There are as many errors and operators as there are entries. -/
  count : errors.length + g.operators.length = items.length
  /-- Each entry is reported by one of the errors, for a reason, or makes one of the operators. -/
  sifted : ∃ reports, reports.Perm errors ∧
    Sifts (Reported items) (fun entry op ↦ ComesFrom op entry.1) items.zipIdx reports g.operators
  /-- The operators come from entries in the order in which these stand, and are as declared up to
  the kinds of their arguments. -/
  kept : List.SublistForall₂ ComesFrom g.operators items
  /-- Settling starts anew at most as often as there are operators to settle. Its errors, one for
  each round, are the last ones. -/
  settled : ∃ earlier final, errors = earlier ++ (settle (drafted items)).1 ∧
    Rounds (declaredNames (drafted items)) (drafted items) (settle (drafted items)).1 final ∧
    assemble (declaredNames (drafted items)) final = .ok g ∧
    (settle (drafted items)).1.length ≤ (drafted items).length
  /-- A name that is reported as missing is the name or the category of an operator that was there
  to settle, and that is not live in the round of the report. -/
  missing : ∀ before after operator argument word,
    (settle (drafted items)).1 = before ++ .missingOperator operator argument word :: after →
      ∃ live, Rounds (declaredNames (drafted items)) (drafted items) before live ∧
        ∃ draft ∈ drafted items, draft ∉ live ∧ (draft.name = word ∨ draft.returns = some word)
  /-- A name that is reported as unknown is neither. -/
  unknown : ∀ operator argument word,
    .unknownKind operator argument word ∈ (settle (drafted items)).1 →
      ∀ draft ∈ drafted items, draft.name ≠ word ∧ draft.returns ≠ some word

theorem settle_missing {drafts : List Draft} {before after : List GrammarError}
    {operator argument word : String}
    (h : (settle drafts).1 = before ++ .missingOperator operator argument word :: after) :
    ∃ live, Rounds (declaredNames drafts) drafts before live ∧
      ∃ draft ∈ drafts, draft ∉ live ∧ (draft.name = word ∨ draft.returns = some word) := by
  obtain ⟨final, hrounds, _⟩ := settle_rounds drafts
  obtain ⟨live, offence, hbefore, hblamed, herror⟩ := hrounds.exists_round h
  obtain ⟨hdeclared, hgone⟩ := assemble_missing hblamed herror
  obtain ⟨draft, hdraft, hword⟩ := mem_declaredNames_iff.mp hdeclared
  refine ⟨live, hbefore, draft, hdraft, fun hlive ↦ ?_, hword⟩
  exact hword.elim (hgone draft hlive).1 (hgone draft hlive).2

theorem settle_unknown {drafts : List Draft} {operator argument word : String}
    (h : .unknownKind operator argument word ∈ (settle drafts).1) :
    ∀ draft ∈ drafts, draft.name ≠ word ∧ draft.returns ≠ some word := by
  obtain ⟨before, after, hsplit⟩ := List.append_of_mem h
  obtain ⟨final, hrounds, _⟩ := settle_rounds drafts
  obtain ⟨live, offence, _, hblamed, herror⟩ := hrounds.exists_round hsplit
  have hnot := assemble_unknown hblamed herror
  rw [mem_declaredNames_iff] at hnot
  intro draft hdraft
  exact ⟨fun hname ↦ hnot ⟨draft, hdraft, Or.inl hname⟩,
    fun hreturns ↦ hnot ⟨draft, hdraft, Or.inr hreturns⟩⟩

/-- Entries of which two are kept, an object and an array, and each of the others is reported for
another reason. -/
def mixedEntries : List Json :=
  [ entry " " none [],
    .obj [("args", .arr [.obj [("default", .str "1"), ("kind", .str "int"), ("name", .str "n")]]),
      ("name", .str "lit"), ("returns", .str "Num")],
    entry "lit" none [],
    entry "open" none [("x", "List[")],
    entry "loop" (some "Expr") [("x", "Expr")],
    entry "leaf" none [("x", "Expr"), ("y", "Num")],
    entry "odd" none [("x", "Nope")],
    .arr [.str "neg", .null,
      .arr [.arr [.str "x", .str "Num"], .arr [.str "y", .str "bool", .str "true"]]] ]

/-- **Every entry survives or is reported once**, for every description that is an array of entries
or holds one under `operators`. -/
theorem ofJson_accounted {description : Json} {items : List Json}
    (h : description = .arr items ∨
      ∃ members, description = .obj members ∧ members.lookup "operators" = some (.arr items)) :
    Accounted items (ofJson description).1 (ofJson description).2 := by
  have hload : ofJson description = ofEntries items := by
    rcases h with rfl | ⟨members, rfl, hmembers⟩
    · rfl
    · simp only [ofJson, entries, hmembers]
  rw [hload]
  obtain ⟨reports, hreports, hsifts⟩ := ofEntries_sifts items
  obtain ⟨final, hrounds, hfinal⟩ := settle_rounds (drafted items)
  obtain ⟨late, hlate, hlateSifts⟩ := settle_sifts (drafted_nodup items)
  refine ⟨?_, ⟨reports, hreports, hsifts⟩, ?_, ⟨_, final, ofEntries_fst items, hrounds, hfinal, ?_⟩,
    fun _ _ _ _ _ ↦ settle_missing, fun _ _ _ ↦ settle_unknown⟩
  · rw [← hreports.length_eq, hsifts.length_eq, List.length_zipIdx]
  · exact hsifts.sublist_of_zipIdx
  · rw [← hlate.length_eq, ← hlateSifts.length_eq]
    exact Nat.le_add_right _ _

theorem ofJson_accounted_mixed :
    let description := Json.obj [("operators", .arr mixedEntries)]
    (ofJson description).2.operators =
        [⟨"lit", some "Num", [⟨"n", .atom .int, some "1"⟩]⟩,
          ⟨"neg", none, [⟨"x", .operator "lit", none⟩, ⟨"y", .atom .bool, some "true"⟩]⟩] ∧
      (settle (drafted mixedEntries)).1.drop 2 = [.missingOperator "leaf" "x" "Expr"] ∧
      Accounted mixedEntries (ofJson description).1 (ofJson description).2 := by
  intro description
  have hoperators : (ofJson description).2.operators =
      [⟨"lit", some "Num", [⟨"n", .atom .int, some "1"⟩]⟩,
        ⟨"neg", none, [⟨"x", .operator "lit", none⟩, ⟨"y", .atom .bool, some "true"⟩]⟩] := by
    decide +kernel
  have hmissing : (settle (drafted mixedEntries)).1.drop 2 =
      [.missingOperator "leaf" "x" "Expr"] := by decide +kernel
  exact ⟨hoperators, hmissing, ofJson_accounted (Or.inr ⟨_, rfl, rfl⟩)⟩

end Grammar

end FormulaEdit
