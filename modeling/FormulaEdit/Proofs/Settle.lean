import FormulaEdit.Proofs.Load

/-!
# The operators that settling leaves out

Settling blames the first operator whose defaults have no bounded depth. This need not be the
operator at which the defaults run in a circle: an operator is also blamed for what its defaults
lead to. Later the culprit may be left out in its turn, its category may go to another operator, and
with that one in place the first operator would have been fine. So an operator that is left out need
not be at fault among the survivors (`not_forall_dropped_atFault`).

This is the only way to be left out without fault. `dropped_atFault_or_uses_dropped` says that an
operator, put back among the survivors, either is at fault or was blamed while its defaults led to
another operator that went later.

The proof compares two lists of live drafts, one a part of the other. A name that stands for
something among the fewer stands for something among all. If what it stands for among all is still
there, it stands for the same among the fewer.
-/

namespace FormulaEdit

variable {live fewer : List Draft}

/-! ## Fewer drafts -/

theorem StandsFor.unique {word : String} {kind kind' : Kind} (h : StandsFor live word kind)
    (h' : StandsFor live word kind') : kind = kind' :=
  Option.some.inj ((binding?_eq_some_iff.mpr h).symm.trans (binding?_eq_some_iff.mpr h'))

mutual

theorem Lowers.exists_of_subset (hsub : fewer ⊆ live) :
    {e : KindExpr} → {kind : Kind} → Lowers fewer e kind → ∃ kind', Lowers live e kind'
  | .name word, _, .name h => by
    have hstands : ∃ kind', StandsFor live word kind' := by
      rw [exists_standsFor_iff]
      refine (exists_standsFor_iff.mp ⟨_, h⟩).imp_right ?_
      rintro ⟨op, hop, hword⟩
      exact ⟨op, hsub hop, hword⟩
    obtain ⟨kind', h'⟩ := hstands
    exact ⟨kind', .name h'⟩
  | .list _, _, .list h => by
    obtain ⟨kind', h'⟩ := h.exists_of_subset hsub
    exact ⟨.list kind', .list h'⟩
  | .union _, _, .union h => by
    obtain ⟨kinds', h'⟩ := h.exists_of_subset hsub
    exact ⟨.union kinds', .union h'⟩

theorem LowersAll.exists_of_subset (hsub : fewer ⊆ live) :
    {es : List KindExpr} → {kinds : List Kind} → LowersAll fewer es kinds →
      ∃ kinds', LowersAll live es kinds'
  | [], _, .nil => ⟨[], .nil⟩
  | _ :: _, _, .cons h hs => by
    obtain ⟨kind', h'⟩ := h.exists_of_subset hsub
    obtain ⟨kinds', hs'⟩ := hs.exists_of_subset hsub
    exact ⟨kind' :: kinds', .cons h' hs'⟩

end

theorem LowersOperator.exists_of_subset (hsub : fewer ⊆ live) {draft : Draft} {op : Operator Kind}
    (h : LowersOperator fewer draft op) : ∃ op', LowersOperator live draft op' := by
  have hargs : ∀ arg ∈ draft.args, ∃ lowered, LowersArg live arg lowered := by
    intro arg harg
    obtain ⟨lowered, _, hname, hinitial, hkind⟩ := exists_left_of_forall₂ h.2.2.flip harg
    obtain ⟨kind', hkind'⟩ := hkind.exists_of_subset hsub
    exact ⟨{ lowered with kind := kind' }, hname, hinitial, hkind'⟩
  obtain ⟨args', hargs'⟩ := exists_forall₂ hargs
  exact ⟨⟨draft.name, draft.returns, args'⟩, rfl, rfl, hargs'⟩

/-- A name keeps standing for an operator that stays, since the first of a category is still the
first when others go. -/
theorem StandsFor.restrict (hnodup : (live.map (·.name)).Nodup) (hsub : fewer.Sublist live)
    {word : String} {kind : Kind} (h : StandsFor live word kind)
    (hkept : ∀ name, kind = .operator name → name ∈ fewer.map (·.name)) :
    StandsFor fewer word kind := by
  rcases h with ⟨spelled⟩ | @⟨before, after, first, unspelled, rfl, declares, earlier⟩ |
    ⟨unspelled, uncategorised, _, _⟩
  · exact .atom spelled
  · obtain ⟨draft, hdraft, hname⟩ := List.mem_map.mp (hkept first.name rfl)
    obtain rfl : draft = first :=
      List.inj_on_of_nodup_map hnodup (hsub.subset hdraft) (by simp) hname
    obtain ⟨left, right, rfl, hleft, hright⟩ := List.sublist_append_iff.mp hsub
    have hout : draft ∉ before ++ after :=
      (List.nodup_middle.mp (List.Nodup.of_map _ hnodup)).notMem
    rw [List.mem_append, not_or] at hout
    cases hright with
    | cons _ hright =>
      rcases List.mem_append.mp hdraft with hdraft | hdraft
      · exact absurd (hleft.subset hdraft) hout.1
      · exact absurd (hright.subset hdraft) hout.2
    | cons_cons _ hright =>
      exact .category unspelled rfl declares fun op hop ↦ earlier op (hleft.subset hop)
  · obtain ⟨draft, hdraft, hname⟩ := List.mem_map.mp (hkept word rfl)
    exact .operator unspelled (fun other hother ↦ uncategorised other (hsub.subset hother)) hdraft
      hname

namespace Grammar

/-! ## What defaults lead to -/

/-- The operators that the default of a kind is made of. -/
inductive Uses (g : Grammar) : Kind → String → Prop
  | operator (name : String) : Uses g (.operator name) name
  | argument {name used : String} {op : Operator Kind} {arg : Argument Kind}
      (found : g.find? name = some op) (mem : arg ∈ op.args) (h : Uses g arg.kind used) :
      Uses g (.operator name) used
  | variant {first : Kind} {used : String} (rest : List Kind) (h : Uses g first used) :
      Uses g (.union (first :: rest)) used

/-- Two kinds with the same default, as far as it goes without looking at operators. -/
inductive SameDefault : Kind → Kind → Prop
  | refl (kind : Kind) : SameDefault kind kind
  | list (element element' : Kind) : SameDefault (.list element) (.list element')
  | union {first first' : Kind} (rest rest' : List Kind) (h : SameDefault first first') :
      SameDefault (.union (first :: rest)) (.union (first' :: rest'))

theorem find?_eq_some_of_mem {g : Grammar} (hnodup : g.names.Nodup) {op : Operator Kind}
    (hop : op ∈ g.operators) : g.find? op.name = some op := by
  obtain ⟨found, hfound⟩ : ∃ found, g.find? op.name = some found := by
    rw [← Option.isSome_iff_exists]
    exact mem_names_iff_has.mp (List.mem_map_of_mem hop)
  have hname : found.name = op.name := by simpa using List.find?_some hfound
  rw [hfound, List.inj_on_of_nodup_map hnodup (List.mem_of_find?_eq_some hfound) hop hname]

theorem exists_draft_of_find? {ops : List (Operator Kind)}
    (hlowers : List.Forall₂ (LowersOperator live) live ops) {name : String} {op : Operator Kind}
    (h : find? ⟨ops⟩ name = some op) :
    ∃ draft ∈ live, draft.name = name ∧ LowersOperator live draft op := by
  obtain ⟨draft, hdraft, hlowered⟩ :=
    exists_left_of_forall₂ hlowers (List.mem_of_find?_eq_some h)
  have hname : op.name = name := by simpa using List.find?_some h
  exact ⟨draft, hdraft, hlowered.1.symm.trans hname, hlowered⟩

theorem exists_find?_of_mem (hnodup : (live.map (·.name)).Nodup) {ops : List (Operator Kind)}
    (hlowers : List.Forall₂ (LowersOperator live) live ops) {draft : Draft}
    (hdraft : draft ∈ live) :
    ∃ op, find? ⟨ops⟩ draft.name = some op ∧ LowersOperator live draft op := by
  obtain ⟨op, hop, hlowered⟩ := exists_left_of_forall₂ hlowers.flip hdraft
  refine ⟨op, ?_, hlowered⟩
  rw [← hlowered.1]
  refine find?_eq_some_of_mem ?_ hop
  rwa [names, names_of_lowers hlowers]

theorem Uses.mem_of_lowers {ops : List (Operator Kind)}
    (hlowers : List.Forall₂ (LowersOperator live) live ops) {kind : Kind} {used : String}
    (h : Uses ⟨ops⟩ kind used) {e : KindExpr} (he : Lowers live e kind) :
    used ∈ live.map (·.name) := by
  induction h generalizing e with
  | operator name =>
    obtain ⟨hstands⟩ := he
    exact hstands.mem_names
  | argument found mem _ ih =>
    obtain ⟨draft, _, _, hlowered⟩ := exists_draft_of_find? hlowers found
    obtain ⟨written, _, _, _, hkind⟩ := exists_left_of_forall₂ hlowered.2.2 mem
    exact ih hkind
  | variant rest _ ih =>
    rcases he with ⟨⟨⟩⟩ | _ | ⟨_ | ⟨hfirst, _⟩⟩
    exact ih hfirst

theorem Uses.mem_of_mem {ops : List (Operator Kind)}
    (hlowers : List.Forall₂ (LowersOperator live) live ops) {name used : String}
    (hname : name ∈ live.map (·.name)) (h : Uses ⟨ops⟩ (.operator name) used) :
    used ∈ live.map (·.name) := by
  cases h with
  | operator => exact hname
  | argument found mem h =>
    obtain ⟨draft, _, _, hlowered⟩ := exists_draft_of_find? hlowers found
    obtain ⟨written, _, _, _, hkind⟩ := exists_left_of_forall₂ hlowered.2.2 mem
    exact h.mem_of_lowers hlowers hkind

section Compare

variable {ops ops' : List (Operator Kind)}

/-- An expression denotes kinds with the same default among all drafts and among fewer, if the
operators that its default is made of stay. -/
theorem sameDefault_of_lowers (hnodup : (live.map (·.name)).Nodup) (hsub : fewer.Sublist live) :
    {e : KindExpr} → {kind kind' : Kind} → Lowers live e kind → Lowers fewer e kind' →
      (∀ used, Uses ⟨ops⟩ kind used → used ∈ fewer.map (·.name)) → SameDefault kind' kind
  | .name _, _, _, .name h, .name h', hkept => by
    have hstays := h.restrict hnodup hsub fun name hname ↦ hkept name (hname ▸ .operator name)
    rw [h'.unique hstays]
    exact .refl _
  | .list _, _, _, .list _, .list _, _ => .list _ _
  | .union [], _, _, .union .nil, .union .nil, _ => .refl _
  | .union (_ :: _), _, _, .union (.cons h _), .union (.cons h' _), hkept =>
    .union _ _ (sameDefault_of_lowers hnodup hsub h h' fun used hused ↦
      hkept used (.variant _ hused))

/-- A default that is bounded among fewer drafts is bounded among all, if the operators that it is
made of there stay. -/
theorem exists_hasDepth_of_fewer (hnodup : (live.map (·.name)).Nodup) (hsub : fewer.Sublist live)
    (hlive : List.Forall₂ (LowersOperator live) live ops)
    (hfewer : List.Forall₂ (LowersOperator fewer) fewer ops') {kind kind' : Kind} {n : Nat}
    (h : HasDepth ⟨ops'⟩ kind' n) (hsame : SameDefault kind' kind)
    (hkept : ∀ used, Uses ⟨ops⟩ kind used → used ∈ fewer.map (·.name)) :
    ∃ m ≤ n, HasDepth ⟨ops⟩ kind m := by
  induction h generalizing kind with
  | atom type =>
    cases hsame
    exact ⟨1, le_rfl, .atom type⟩
  | list element =>
    cases hsame
    · exact ⟨1, le_rfl, .list _⟩
    · exact ⟨1, le_rfl, .list _⟩
  | union rest _ ih =>
    cases hsame with
    | refl =>
      obtain ⟨m, hm, hd⟩ := ih (.refl _) fun used hused ↦ hkept used (.variant _ hused)
      exact ⟨m + 1, Nat.succ_le_succ hm, .union _ hd⟩
    | union _ rest' hfirst =>
      obtain ⟨m, hm, hd⟩ := ih hfirst fun used hused ↦ hkept used (.variant _ hused)
      exact ⟨m + 1, Nat.succ_le_succ hm, .union _ hd⟩
  | @operator name op' depths found' _ ih =>
    cases hsame
    obtain ⟨draft, hdraft, rfl, hlowered'⟩ := exists_draft_of_find? hfewer found'
    obtain ⟨op, found, hlowered⟩ := exists_find?_of_mem hnodup hlive (hsub.subset hdraft)
    refine HasDepth.of_args found fun arg harg ↦ ?_
    obtain ⟨written, hwritten, _, _, hkind⟩ := exists_left_of_forall₂ hlowered.2.2 harg
    obtain ⟨arg', harg', _, _, hkind'⟩ := exists_left_of_forall₂ hlowered'.2.2.flip hwritten
    have hkept' : ∀ used, Uses ⟨ops⟩ arg.kind used → used ∈ fewer.map (·.name) :=
      fun used hused ↦ hkept used (.argument found harg hused)
    have hsame := sameDefault_of_lowers hnodup hsub hkind hkind' hkept'
    obtain ⟨m, hm, hd⟩ := ih arg' harg' hsame hkept'
    exact ⟨m, hm.trans (List.le_max_of_le' 0 (List.mem_map_of_mem harg') le_rfl), hd⟩

end Compare

/-! ## Putting a draft back -/

/-- Whether a draft is what keeps the live ones from being a grammar: one of its own arguments is
the first that denotes nothing, or all denote something but its default has no bounded depth. -/
def atFault (live : List Draft) (draft : Draft) : Bool :=
  match resolveDrafts live live with
  | .error unresolved => unresolved.operator = draft.name
  | .ok ops => !(operatorDepth ⟨ops⟩ draft.name []).isOk

/-- The drafts of the operators of a grammar, and one more draft in its place among them. -/
def putBack (drafts : List Draft) (g : Grammar) (draft : Draft) : List Draft :=
  drafts.filter fun other ↦ g.has other.name || other.name = draft.name

theorem exists_hasDepth_of_not_atFault {draft : Draft}
    (hown : ∀ other ∈ live, other.name ≠ draft.name → ∃ op, LowersOperator live other op)
    (h : atFault live draft = false) :
    ∃ ops, List.Forall₂ (LowersOperator live) live ops ∧
      ∃ n ≤ maxDepth, HasDepth ⟨ops⟩ (.operator draft.name) n := by
  rw [atFault] at h
  split at h
  · next unresolved hresolve =>
    obtain ⟨blamed, hblamed, hname, hnone⟩ := resolveDrafts_eq_error hresolve
    rw [decide_eq_false_iff_not, ← hname] at h
    obtain ⟨op, hop⟩ := hown blamed hblamed h
    exact absurd hop (hnone op)
  · next ops hresolve =>
    refine ⟨ops, resolveDrafts_eq_ok_iff.mp hresolve, ?_⟩
    rw [← operatorDepth_isOk_iff]
    cases hdepth : operatorDepth ⟨ops⟩ draft.name [] with
    | ok result => exact ⟨result, rfl⟩
    | error fault => simp [hdepth, Except.isOk, Except.toBool] at h

theorem filter_eq_filter_of_sublist {α : Type} {p : α → Bool} {xs ys : List α}
    (hsub : xs.Sublist ys) (hnodup : ys.Nodup) (h : ∀ y ∈ ys, p y = true → y ∈ xs) :
    ys.filter p = xs.filter p := by
  induction hsub with
  | slnil => rfl
  | @cons xs ys y hsub ih =>
    obtain ⟨hy, hnodup⟩ := List.nodup_cons.mp hnodup
    have hout : ¬p y = true := fun hp ↦ hy (hsub.subset (h y List.mem_cons_self hp))
    rw [List.filter_cons_of_neg hout]
    exact ih hnodup fun z hz ↦ h z (List.mem_cons_of_mem _ hz)
  | @cons_cons xs ys y hsub ih =>
    obtain ⟨hy, hnodup⟩ := List.nodup_cons.mp hnodup
    rw [List.filter_cons, List.filter_cons, ih hnodup fun z hz hp ↦ ?_]
    rcases List.mem_cons.mp (h z (List.mem_cons_of_mem _ hz) hp) with rfl | hz'
    · exact absurd hz hy
    · exact hz'

section PutBack

variable {drafts survivors round : List Draft} {g : Grammar} {draft : Draft}

theorem has_iff_mem_survivors (hnodup : (drafts.map (·.name)).Nodup)
    (hsub : survivors.Sublist drafts)
    (hlowers : List.Forall₂ (LowersOperator survivors) survivors g.operators) {other : Draft}
    (hother : other ∈ drafts) : g.has other.name = true ↔ other ∈ survivors := by
  rw [← mem_names_iff_has, names, names_of_lowers hlowers]
  constructor
  · intro h
    obtain ⟨survivor, hsurvivor, hname⟩ := List.mem_map.mp h
    exact List.inj_on_of_nodup_map hnodup (hsub.subset hsurvivor) hother hname ▸ hsurvivor
  · exact fun h ↦ List.mem_map_of_mem h

theorem putBack_sublist (hnodup : (drafts.map (·.name)).Nodup) (hround : round.Sublist drafts)
    (hkept : survivors.Sublist round)
    (hlowers : List.Forall₂ (LowersOperator survivors) survivors g.operators)
    (hdraft : draft ∈ round) : (putBack drafts g draft).Sublist round := by
  have hsame : putBack drafts g draft =
      round.filter fun other ↦ g.has other.name || other.name = draft.name := by
    refine filter_eq_filter_of_sublist hround (List.Nodup.of_map _ hnodup) fun other hother h ↦ ?_
    rw [Bool.or_eq_true, decide_eq_true_eq,
      has_iff_mem_survivors hnodup (hkept.trans hround) hlowers hother] at h
    rcases h with h | h
    · exact hkept.subset h
    · exact List.inj_on_of_nodup_map hnodup (hround.subset hdraft) hother h.symm ▸ hdraft
  rw [hsame]
  exact List.filter_sublist

theorem putBack_lowers (hnodup : (drafts.map (·.name)).Nodup) (hsub : survivors.Sublist drafts)
    (hlowers : List.Forall₂ (LowersOperator survivors) survivors g.operators) {other : Draft}
    (hother : other ∈ putBack drafts g draft) (hne : other.name ≠ draft.name) :
    ∃ op, LowersOperator (putBack drafts g draft) other op := by
  rw [putBack, List.mem_filter, Bool.or_eq_true, decide_eq_true_eq] at hother
  obtain ⟨hother, hhas⟩ := hother
  rw [has_iff_mem_survivors hnodup hsub hlowers hother] at hhas
  obtain ⟨op, _, hop⟩ := exists_left_of_forall₂ hlowers.flip (hhas.resolve_right hne)
  refine LowersOperator.exists_of_subset (fun survivor hsurvivor ↦ ?_) hop
  rw [putBack, List.mem_filter, Bool.or_eq_true,
    has_iff_mem_survivors hnodup hsub hlowers (hsub.subset hsurvivor)]
  exact ⟨hsub.subset hsurvivor, Or.inl hsurvivor⟩

end PutBack

/-- A description in which two operators lead to the category `Expr`. The second of them is its
first member and leads back to itself. -/
def rebound : Json :=
  .arr [entry "abs" none [("x", "Expr")], entry "neg" (some "Expr") [("x", "Expr")],
    entry "lit" (some "Expr") []]

/-- **Not every operator that is left out is at fault.** Of `rebound` only the last operator is
left. The first one is blamed while the category belongs to the second. Next to the last one it
would have been fine. -/
theorem not_forall_dropped_atFault :
    ¬∀ description, ∀ draft ∈ drafted (entriesOf description),
      (ofJson description).2.has draft.name = false →
        atFault (putBack (drafted (entriesOf description)) (ofJson description).2 draft) draft =
          true := by
  intro h
  let abs : Draft := ⟨"abs", none, [⟨"x", .name "Expr", none⟩]⟩
  have hmem : abs ∈ drafted (entriesOf rebound) := by decide +kernel
  have hdropped : (ofJson rebound).2.has abs.name = false := by decide +kernel
  have hfine : atFault (putBack (drafted (entriesOf rebound)) (ofJson rebound).2 abs) abs =
      false := by decide +kernel
  have hfault := h rebound abs hmem hdropped
  rw [hfine] at hfault
  cases hfault

/-- **Left out for a reason.** An operator that loading leaves out is at fault among the survivors,
unless it was blamed when its default used another operator that was left out later. -/
theorem dropped_atFault_or_uses_dropped (description : Json) {draft : Draft}
    (hmem : draft ∈ drafted (entriesOf description))
    (hdropped : (ofJson description).2.has draft.name = false) :
    let drafts := drafted (entriesOf description)
    let g := (ofJson description).2
    atFault (putBack drafts g draft) draft = true ∨
      ∃ round offence ops used, Settles (declaredNames drafts) drafts round ∧
        assemble (declaredNames drafts) round = .error offence ∧ offence.operator = draft.name ∧
        resolveDrafts round round = .ok ops ∧ Uses ⟨ops⟩ (.operator draft.name) used ∧
        used ≠ draft.name ∧ used ∈ round.map (·.name) ∧ g.has used = false := by
  intro drafts g
  have hnodup : (drafts.map (·.name)).Nodup := drafted_nodup _
  obtain ⟨survivors, hsettles, hlowers⟩ := ofJson_survivors description
  have hgone : draft ∉ survivors := by
    rw [← has_iff_mem_survivors hnodup hsettles.sublist hlowers hmem, hdropped]
    simp
  obtain ⟨round, offence, hround, hdraft, hkept, hblamed, hname⟩ :=
    hsettles.exists_round hmem hgone
  have hroundNodup := hnodup.sublist (hround.sublist.map _)
  have hpart := putBack_sublist hnodup hround.sublist hkept hlowers hdraft
  rw [or_iff_not_imp_left, Bool.not_eq_true]
  intro hfault
  obtain ⟨ops', hops', n, hn, hdepth⟩ := exists_hasDepth_of_not_atFault
    (fun other ↦ putBack_lowers hnodup hsettles.sublist hlowers) hfault
  -- the operator that was blamed is this one, and not for a name that stands for nothing
  obtain ⟨blamed, hblamedMem, hblamedName, hoffends⟩ := assemble_eq_error hblamed
  obtain rfl : blamed = draft :=
    List.inj_on_of_nodup_map hroundNodup hblamedMem hdraft (hblamedName.trans hname)
  have hback : blamed ∈ putBack drafts g blamed := List.mem_filter.mpr ⟨hmem, by simp⟩
  rcases hoffends with hnone | ⟨ops, hops, hbound⟩
  · obtain ⟨op', _, hop'⟩ := exists_left_of_forall₂ hops'.flip hback
    obtain ⟨op, hop⟩ := LowersOperator.exists_of_subset hpart.subset hop'
    exact absurd hop (hnone op)
  · obtain ⟨used, hused, hout⟩ : ∃ used, Uses ⟨ops⟩ (.operator blamed.name) used ∧
        used ∉ (putBack drafts g blamed).map (·.name) := by
      by_contra hall
      push Not at hall
      obtain ⟨m, hm, hd⟩ :=
        exists_hasDepth_of_fewer hroundNodup hpart hops hops' hdepth (.refl _) hall
      exact hbound m (hm.trans hn) hd
    have halive := hused.mem_of_mem hops (List.mem_map_of_mem hdraft)
    refine ⟨round, offence, ops, used, hround, hblamed, hname, resolveDrafts_eq_ok_iff.mpr hops,
      hused, ?_, halive, ?_⟩
    · rintro rfl
      exact hout (List.mem_map_of_mem hback)
    · obtain ⟨other, hother, rfl⟩ := List.mem_map.mp halive
      rw [← Bool.not_eq_true]
      intro hhas
      exact hout (List.mem_map_of_mem (List.mem_filter.mpr
        ⟨hround.sublist.subset hother, by simp [g, hhas]⟩))

theorem dropped_neg :
    let neg : Draft := ⟨"neg", some "Expr", [⟨"x", .name "Expr", none⟩]⟩
    let drafts := drafted (entriesOf rebound)
    let g := (ofJson rebound).2
    neg ∈ drafts ∧ g.has "neg" = false ∧ (atFault (putBack drafts g neg) neg = true ∨
      ∃ round offence ops used, Settles (declaredNames drafts) drafts round ∧
        assemble (declaredNames drafts) round = .error offence ∧ offence.operator = "neg" ∧
        resolveDrafts round round = .ok ops ∧ Uses ⟨ops⟩ (.operator "neg") used ∧
        used ≠ "neg" ∧ used ∈ round.map (·.name) ∧ g.has used = false) := by
  intro neg drafts g
  have hmem : neg ∈ drafts := by decide +kernel
  have hdropped : g.has "neg" = false := by decide +kernel
  exact ⟨hmem, hdropped, dropped_atFault_or_uses_dropped rebound hmem hdropped⟩

end Grammar

end FormulaEdit
