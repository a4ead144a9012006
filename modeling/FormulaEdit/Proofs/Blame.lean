import FormulaEdit.Grammar.Load
import FormulaEdit.Proofs.Resolve

/-!
# The name that is blamed

A name dangles if it spells no atom type and is neither a return category nor the name of a live
draft. Resolving goes through the drafts, through the arguments of each and through the expression
of each argument, and stops at the first failure. Apart from that, `KindExpr.names` lists the names
of an expression. The two agree: what resolving reports is the first draft in which a name dangles,
its first argument of this sort and the first such name in the list of that argument. Three walks
are cut short here, one inside the other, and each is described by the first member with a property
(`IsFirst`).

If no name dangles then resolving succeeds, and what it gives has the lists and unions of the
expressions, with an atom type or an operator for each name (`Mirrors`).
-/

namespace FormulaEdit

/-! ## First members -/

/-- The first member of a list that has a property. -/
def IsFirst {α : Type} (p : α → Prop) (xs : List α) (x : α) : Prop :=
  ∃ before after, xs = before ++ x :: after ∧ p x ∧ ∀ y ∈ before, ¬p y

section IsFirst

variable {α : Type} {p : α → Prop} {x y : α} {xs : List α}

theorem IsFirst.holds (h : IsFirst p xs x) : p x := by
  obtain ⟨_, _, _, hx, _⟩ := h
  exact hx

theorem IsFirst.mem (h : IsFirst p xs x) : x ∈ xs := by
  obtain ⟨_, _, rfl, _⟩ := h
  simp

theorem isFirst_nil : ¬IsFirst p [] y := by
  rintro ⟨before, after, hsplit, _⟩
  simp at hsplit

theorem isFirst_cons_of_pos (hx : p x) : IsFirst p (x :: xs) y ↔ y = x := by
  constructor
  · rintro ⟨before, after, hsplit, _, hbefore⟩
    obtain _ | ⟨z, before⟩ := before
    · exact (List.cons.inj hsplit).1.symm
    · obtain ⟨rfl, _⟩ := List.cons.inj hsplit
      exact absurd hx (hbefore x List.mem_cons_self)
  · rintro rfl
    exact ⟨[], xs, rfl, hx, by simp⟩

theorem isFirst_cons_of_neg (hx : ¬p x) : IsFirst p (x :: xs) y ↔ IsFirst p xs y := by
  constructor
  · rintro ⟨before, after, hsplit, hy, hbefore⟩
    obtain _ | ⟨z, before⟩ := before
    · obtain ⟨rfl, _⟩ := List.cons.inj hsplit
      exact absurd hy hx
    · obtain ⟨rfl, rfl⟩ := List.cons.inj hsplit
      exact ⟨before, after, rfl, hy, fun w hw ↦ hbefore w (List.mem_cons_of_mem _ hw)⟩
  · rintro ⟨before, after, rfl, hy, hbefore⟩
    exact ⟨x :: before, after, rfl, hy, List.forall_mem_cons.mpr ⟨hx, hbefore⟩⟩

theorem exists_isFirst_iff : (∃ x, IsFirst p xs x) ↔ ∃ x ∈ xs, p x := by
  constructor
  · rintro ⟨x, before, after, rfl, hx, _⟩
    exact ⟨x, by simp, hx⟩
  · intro h
    induction xs with
    | nil => simp at h
    | cons x xs ih =>
      by_cases hx : p x
      · exact ⟨x, (isFirst_cons_of_pos hx).mpr rfl⟩
      · obtain ⟨y, hy, hpy⟩ := h
        rcases List.mem_cons.mp hy with rfl | hy
        · exact absurd hpy hx
        · obtain ⟨z, hz⟩ := ih ⟨y, hy, hpy⟩
          exact ⟨z, (isFirst_cons_of_neg hx).mpr hz⟩

theorem find?_eq_some_iff_isFirst {test : α → Bool} (htest : ∀ x, test x = true ↔ p x) :
    xs.find? test = some x ↔ IsFirst p xs x := by
  have hfalse : ∀ x, test x = false ↔ ¬p x := fun x ↦ by rw [← htest, Bool.not_eq_true]
  rw [List.find?_eq_some_iff_append, IsFirst, htest]
  simp only [Bool.not_eq_true', hfalse]
  constructor
  · rintro ⟨hx, before, after, hsplit, hbefore⟩
    exact ⟨before, after, hsplit, hx, hbefore⟩
  · rintro ⟨before, after, hsplit, hx, hbefore⟩
    exact ⟨hx, before, after, hsplit, hbefore⟩

end IsFirst

/-! ## Dangling names -/

/-- A name that stands for nothing among the live drafts. -/
def Dangling (live : List Draft) (word : String) : Prop :=
  Atom.ofName? word = none ∧
    (∀ op ∈ live, op.returns ≠ some word) ∧ ∀ op ∈ live, op.name ≠ word

def Argument.Dangles (live : List Draft) (arg : Argument KindExpr) : Prop :=
  ∃ word ∈ arg.kind.names, Dangling live word

def Operator.Dangles (live : List Draft) (op : Draft) : Prop :=
  ∃ arg ∈ op.args, arg.Dangles live

/-- **What is to be blamed**: the first draft in which a name dangles, its first argument of this
sort and the first such name. -/
structure Blames (live drafts : List Draft) (op : Draft) (arg : Argument KindExpr)
    (word : String) : Prop where
  operator : IsFirst (Operator.Dangles live) drafts op
  argument : IsFirst (Argument.Dangles live) op.args arg
  name : IsFirst (Dangling live) arg.kind.names word

variable {live : List Draft}

theorem binding?_eq_none_iff {word : String} :
    binding? live word = none ↔ Dangling live word := by
  have hstands : binding? live word = none ↔ ¬∃ kind, StandsFor live word kind := by
    rw [Option.eq_none_iff_forall_ne_some, not_exists]
    exact forall_congr' fun kind ↦ not_congr binding?_eq_some_iff
  rw [hstands, exists_standsFor_iff, Dangling]
  simp only [not_or, not_exists, not_and, Option.eq_none_iff_forall_ne_some]
  exact and_congr_right fun _ ↦ ⟨fun h ↦ ⟨fun op hop ↦ (h op hop).1, fun op hop ↦ (h op hop).2⟩,
    fun h op hop ↦ ⟨h.1 op hop, h.2 op hop⟩⟩

theorem resolve_eq_error_iff_isFirst {e : KindExpr} {word : String} :
    e.resolve (binding? live) = .error word ↔ IsFirst (Dangling live) e.names word := by
  rw [resolve_eq_error_iff, find?_eq_some_iff_isFirst]
  intro name
  rw [Option.isNone_iff_eq_none, binding?_eq_none_iff]

theorem Argument.dangles_iff {arg : Argument KindExpr} :
    arg.Dangles live ↔ ∃ word, arg.kind.resolve (binding? live) = .error word := by
  simp only [resolve_eq_error_iff_isFirst]
  exact exists_isFirst_iff.symm

theorem resolveArgs_eq_error_iff {operator : String} {args : List (Argument KindExpr)}
    {unresolved : Unresolved} :
    resolveArgs live operator args = .error unresolved ↔
      ∃ arg word, IsFirst (Argument.Dangles live) args arg ∧
        IsFirst (Dangling live) arg.kind.names word ∧ unresolved = ⟨operator, arg.name, word⟩ := by
  induction args with
  | nil => simp [resolveArgs, isFirst_nil]
  | cons arg args ih =>
    rw [resolveArgs]
    cases hkind : arg.kind.resolve (binding? live) with
    | error word =>
      have hdangles : arg.Dangles live := Argument.dangles_iff.mpr ⟨word, hkind⟩
      have hword : ∀ w, IsFirst (Dangling live) arg.kind.names w ↔ word = w := by
        intro w
        rw [← resolve_eq_error_iff_isFirst, hkind, Except.error.injEq]
      simp [isFirst_cons_of_pos hdangles, hword, eq_comm]
    | ok kind =>
      have hresolves : ¬arg.Dangles live := by
        rw [Argument.dangles_iff]
        rintro ⟨word, hword⟩
        rw [hkind] at hword
        cases hword
      simp only [isFirst_cons_of_neg hresolves, ← ih]
      cases resolveArgs live operator args <;> simp

theorem Operator.dangles_iff {op : Draft} :
    op.Dangles live ↔ ∃ unresolved, resolveArgs live op.name op.args = .error unresolved := by
  constructor
  · intro h
    obtain ⟨arg, harg⟩ := exists_isFirst_iff.mpr h
    obtain ⟨word, hword⟩ := exists_isFirst_iff.mpr harg.holds
    exact ⟨⟨op.name, arg.name, word⟩, resolveArgs_eq_error_iff.mpr ⟨arg, word, harg, hword, rfl⟩⟩
  · rintro ⟨unresolved, h⟩
    obtain ⟨arg, _, harg, _⟩ := resolveArgs_eq_error_iff.mp h
    exact exists_isFirst_iff.mp ⟨arg, harg⟩

theorem exists_blames_iff {drafts : List Draft} {unresolved : Unresolved} :
    (∃ op arg word, Blames live drafts op arg word ∧ unresolved = ⟨op.name, arg.name, word⟩) ↔
      ∃ op, IsFirst (Operator.Dangles live) drafts op ∧
        resolveArgs live op.name op.args = .error unresolved := by
  simp only [resolveArgs_eq_error_iff]
  constructor
  · rintro ⟨op, arg, word, ⟨hop, harg, hword⟩, hunresolved⟩
    exact ⟨op, hop, arg, word, harg, hword, hunresolved⟩
  · rintro ⟨op, hop, arg, word, harg, hword, hunresolved⟩
    exact ⟨op, arg, word, ⟨hop, harg, hword⟩, hunresolved⟩

/-- **Resolving stops at the first draft with a dangling name.** -/
theorem resolveDrafts_eq_error_iff {drafts : List Draft} {unresolved : Unresolved} :
    resolveDrafts live drafts = .error unresolved ↔
      ∃ op arg word, Blames live drafts op arg word ∧ unresolved = ⟨op.name, arg.name, word⟩ := by
  rw [exists_blames_iff]
  induction drafts with
  | nil => simp [resolveDrafts, isFirst_nil]
  | cons op drafts ih =>
    rw [resolveDrafts]
    cases hargs : resolveArgs live op.name op.args with
    | error first =>
      have hdangles : op.Dangles live := Operator.dangles_iff.mpr ⟨first, hargs⟩
      simp [isFirst_cons_of_pos hdangles, hargs]
    | ok args =>
      have hresolves : ¬op.Dangles live := by
        rw [Operator.dangles_iff]
        rintro ⟨first, hfirst⟩
        rw [hargs] at hfirst
        cases hfirst
      simp only [isFirst_cons_of_neg hresolves, ← ih]
      cases resolveDrafts live drafts <;> simp

/-- A draft that is blamed is one of the drafts, and it denotes nothing. -/
theorem resolveDrafts_eq_error {drafts : List Draft} {unresolved : Unresolved}
    (h : resolveDrafts live drafts = .error unresolved) :
    ∃ draft ∈ drafts, draft.name = unresolved.operator ∧ ∀ op, ¬LowersOperator live draft op := by
  obtain ⟨draft, arg, word, hblames, rfl⟩ := resolveDrafts_eq_error_iff.mp h
  refine ⟨draft, hblames.operator.mem, rfl, ?_⟩
  rintro op ⟨_, _, hlowers⟩
  obtain ⟨first, hfirst⟩ := Operator.dangles_iff.mp hblames.operator.holds
  rw [resolveArgs_eq_ok_iff.mpr hlowers] at hfirst
  cases hfirst

theorem resolveDrafts_dangling {drafts : List Draft} {unresolved : Unresolved}
    (h : resolveDrafts live drafts = .error unresolved) : Dangling live unresolved.word := by
  obtain ⟨_, _, _, hblames, rfl⟩ := resolveDrafts_eq_error_iff.mp h
  exact hblames.name.holds

theorem exists_resolveDrafts_eq_error_iff {drafts : List Draft} :
    (∃ unresolved, resolveDrafts live drafts = .error unresolved) ↔
      ∃ op ∈ drafts, op.Dangles live := by
  constructor
  · rintro ⟨unresolved, h⟩
    obtain ⟨op, _, _, hblames, _⟩ := resolveDrafts_eq_error_iff.mp h
    exact exists_isFirst_iff.mp ⟨op, hblames.operator⟩
  · intro h
    obtain ⟨op, hop⟩ := exists_isFirst_iff.mpr h
    obtain ⟨arg, harg⟩ := exists_isFirst_iff.mpr hop.holds
    obtain ⟨word, hword⟩ := exists_isFirst_iff.mpr harg.holds
    exact ⟨_, resolveDrafts_eq_error_iff.mpr ⟨op, arg, word, ⟨hop, harg, hword⟩, rfl⟩⟩

/-! ## Lists and unions -/

/-- A kind with the lists and unions of an expression. -/
inductive Mirrors : KindExpr → Kind → Prop
  | atom (word : String) (type : Atom) : Mirrors (.name word) (.atom type)
  | operator (word name : String) : Mirrors (.name word) (.operator name)
  | list {e : KindExpr} {kind : Kind} (h : Mirrors e kind) : Mirrors (.list e) (.list kind)
  | union {es : List KindExpr} {kinds : List Kind} (h : List.Forall₂ Mirrors es kinds) :
      Mirrors (.union es) (.union kinds)

mutual

theorem Lowers.mirrors {e : KindExpr} {kind : Kind} : Lowers live e kind → Mirrors e kind
  | .name (.atom _) => .atom _ _
  | .name (.category _ _ _ _) => .operator _ _
  | .name (.operator _ _ _ _) => .operator _ _
  | .list h => .list h.mirrors
  | .union h => .union h.mirrors

theorem LowersAll.mirrors {es : List KindExpr} {kinds : List Kind} :
    LowersAll live es kinds → List.Forall₂ Mirrors es kinds
  | .nil => .nil
  | .cons h hs => .cons h.mirrors hs.mirrors

end

/-- An argument that keeps its name and its initial text, and whose kind has the lists and unions of
its expression. -/
def Argument.Mirrors (arg : Argument KindExpr) (lowered : Argument Kind) : Prop :=
  lowered.name = arg.name ∧ lowered.initial = arg.initial ∧
    FormulaEdit.Mirrors arg.kind lowered.kind

/-- An operator that keeps its name and its category, and whose arguments mirror those of the
draft. -/
def Operator.Mirrors (draft : Draft) (op : Operator Kind) : Prop :=
  op.name = draft.name ∧ op.returns = draft.returns ∧
    List.Forall₂ Argument.Mirrors draft.args op.args

theorem LowersOperator.mirrors {draft : Draft} {op : Operator Kind}
    (h : LowersOperator live draft op) : Operator.Mirrors draft op := by
  obtain ⟨hname, hreturns, hargs⟩ := h
  refine ⟨hname, hreturns, hargs.imp ?_⟩
  rintro arg lowered ⟨hname, hinitial, hkind⟩
  exact ⟨hname, hinitial, hkind.mirrors⟩

/-! ## The report -/

namespace Grammar

theorem assemble_of_unresolved {operator argument word : String}
    (h : resolveDrafts live live = .error ⟨operator, argument, word⟩) (declared : List String) :
    assemble declared live = .error ⟨operator,
      if word ∈ declared then .missingOperator operator argument word
      else .unknownKind operator argument word⟩ := by
  simp only [assemble, h, List.contains_iff_mem]
  split <;> rfl

/-- **Resolving blames the first dangling name.** It fails if and only if a name dangles. The error
is about the first draft with such a name, its first such argument and the first such name there,
which is missing or unknown depending on whether it was declared. If resolving succeeds then the
operators have the lists and unions of the drafts. -/
theorem resolveDrafts_blames_first (declared : List String) (live : List Draft) :
    ((∃ unresolved, resolveDrafts live live = .error unresolved) ↔
        ∃ op ∈ live, ∃ arg ∈ op.args, ∃ word ∈ arg.kind.names, Dangling live word) ∧
      (∀ unresolved, resolveDrafts live live = .error unresolved →
        ∃ op arg word, Blames live live op arg word ∧ unresolved = ⟨op.name, arg.name, word⟩ ∧
          assemble declared live = .error ⟨op.name,
            if word ∈ declared then .missingOperator op.name arg.name word
            else .unknownKind op.name arg.name word⟩) ∧
      ∀ ops, resolveDrafts live live = .ok ops → List.Forall₂ Operator.Mirrors live ops := by
  refine ⟨exists_resolveDrafts_eq_error_iff, fun unresolved h ↦ ?_, fun ops h ↦ ?_⟩
  · obtain ⟨op, arg, word, hblames, rfl⟩ := resolveDrafts_eq_error_iff.mp h
    exact ⟨op, arg, word, hblames, rfl, assemble_of_unresolved h declared⟩
  · exact (resolveDrafts_eq_ok_iff.mp h).imp fun _ _ hlowers ↦ hlowers.mirrors

/-- A draft without dangling names, one with dangling names in its second and third argument, and
one more that is too late to be blamed. -/
def danglingDrafts : List Draft :=
  [ ⟨"lit", some "Num", [⟨"x", .union [.name "Date", .list (.name "Num")], none⟩]⟩,
    ⟨"pick", none,
      [ ⟨"x", .list (.name "lit"), none⟩,
        ⟨"y", .union [.list (.union [.name "pick", .name "Gone"]), .name "Lost"], none⟩,
        ⟨"z", .name "Nope", none⟩ ]⟩,
    ⟨"odd", none, [⟨"x", .name "Nope", none⟩]⟩ ]

theorem resolveDrafts_blames_first_nested :
    (∃ op arg word, Blames danglingDrafts danglingDrafts op arg word ∧
        (op.name, arg.name, word) = ("pick", "y", "Gone") ∧
        assemble ["lit", "Num", "pick", "odd", "Gone"] danglingDrafts =
          .error ⟨"pick", .missingOperator "pick" "y" "Gone"⟩) ∧
      ∃ ops, resolveDrafts (danglingDrafts.take 1) (danglingDrafts.take 1) = .ok ops ∧
        List.Forall₂ Operator.Mirrors (danglingDrafts.take 1) ops := by
  have hfails : resolveDrafts danglingDrafts danglingDrafts = .error ⟨"pick", "y", "Gone"⟩ := by
    decide +kernel
  have hresolves : resolveDrafts (danglingDrafts.take 1) (danglingDrafts.take 1) =
      .ok [⟨"lit", some "Num",
        [⟨"x", .union [.atom .timestamp, .list (.operator "lit")], none⟩]⟩] := by
    decide +kernel
  constructor
  · obtain ⟨op, arg, word, hblames, hreport, herror⟩ :=
      (resolveDrafts_blames_first ["lit", "Num", "pick", "odd", "Gone"] danglingDrafts).2.1 _ hfails
    obtain ⟨hop, harg, rfl⟩ := Unresolved.mk.inj hreport
    rw [← hop, ← harg] at herror
    exact ⟨op, arg, _, hblames, by rw [hop, harg], herror⟩
  · exact ⟨_, hresolves, (resolveDrafts_blames_first [] _).2.2 _ hresolves⟩

end Grammar

end FormulaEdit
