import FormulaEdit.Grammar.Resolve
import Mathlib.Data.List.Forall2

/-!
# The meaning of kind expressions

`Lowers live e kind` says which kind an expression denotes among the live drafts, by rules that do
not mention the order in which anything is looked up. A name stands for the atom type it spells. A
name that spells none stands for the first live draft that declares it as its return category, and
for the operator of that name only if it is no category.

Resolving computes this relation. It succeeds exactly on the expressions that denote a kind, and on
any other it stops at the first name that stands for nothing.
-/

namespace FormulaEdit

/-! ## What names and expressions denote -/

/-- What a name stands for among the live drafts. -/
inductive StandsFor (live : List Draft) (word : String) : Kind → Prop
  | atom {type : Atom} (spelled : Atom.ofName? word = some type) : StandsFor live word (.atom type)
  | category {before after : List Draft} {first : Draft} (unspelled : Atom.ofName? word = none)
      (split : live = before ++ first :: after) (declares : first.returns = some word)
      (earlier : ∀ op ∈ before, op.returns ≠ some word) : StandsFor live word (.operator first.name)
  | operator {op : Draft} (unspelled : Atom.ofName? word = none)
      (uncategorised : ∀ other ∈ live, other.returns ≠ some word) (mem : op ∈ live)
      (named : op.name = word) : StandsFor live word (.operator word)

mutual

/-- The kind that an expression denotes among the live drafts. -/
inductive Lowers (live : List Draft) : KindExpr → Kind → Prop
  | name {word : String} {kind : Kind} (h : StandsFor live word kind) :
      Lowers live (.name word) kind
  | list {e : KindExpr} {kind : Kind} (h : Lowers live e kind) : Lowers live (.list e) (.list kind)
  | union {es : List KindExpr} {kinds : List Kind} (h : LowersAll live es kinds) :
      Lowers live (.union es) (.union kinds)

inductive LowersAll (live : List Draft) : List KindExpr → List Kind → Prop
  | nil : LowersAll live [] []
  | cons {e : KindExpr} {kind : Kind} {es : List KindExpr} {kinds : List Kind}
      (h : Lowers live e kind) (hs : LowersAll live es kinds) :
      LowersAll live (e :: es) (kind :: kinds)

end

/-- An argument with its kind expression replaced by what it denotes. -/
def LowersArg (live : List Draft) (arg : Argument KindExpr) (lowered : Argument Kind) : Prop :=
  lowered.name = arg.name ∧ lowered.initial = arg.initial ∧ Lowers live arg.kind lowered.kind

/-- An operator with the kind expressions of its arguments replaced by what they denote. -/
def LowersOperator (live : List Draft) (draft : Draft) (op : Operator Kind) : Prop :=
  op.name = draft.name ∧ op.returns = draft.returns ∧
    List.Forall₂ (LowersArg live) draft.args op.args

variable {live : List Draft}

/-! ## Resolving computes the denotation -/

theorem binding?_eq_some_iff {word : String} {kind : Kind} :
    binding? live word = some kind ↔ StandsFor live word kind := by
  rw [binding?]
  cases hatom : Atom.ofName? word with
  | some type =>
    constructor
    · rintro ⟨⟩
      exact .atom hatom
    · rintro (⟨spelled⟩ | ⟨unspelled, _, _, _⟩ | ⟨unspelled, _, _, _⟩)
      · rw [hatom] at spelled
        exact congrArg (fun type ↦ type.map Kind.atom) spelled
      all_goals simp [hatom] at unspelled
  | none =>
    cases hfirst : live.find? (·.returns = some word) with
    | some first =>
      obtain ⟨hreturns, before, after, rfl, hbefore⟩ := List.find?_eq_some_iff_append.mp hfirst
      simp only [decide_eq_true_eq, Bool.not_eq_true', decide_eq_false_iff_not] at hreturns hbefore
      constructor
      · rintro ⟨⟩
        exact .category hatom rfl hreturns hbefore
      · rintro (⟨spelled⟩ | @⟨before', after', first', _, split, declares, earlier⟩ |
          ⟨_, uncategorised, _, _⟩)
        · simp [hatom] at spelled
        · -- both are the first that declare the category, so they are the same draft
          have hfirst' : (before ++ first :: after).find? (·.returns = some word) = some first' :=
            List.find?_eq_some_iff_append.mpr ⟨by simpa using declares, before', after', split,
              by simpa using earlier⟩
          obtain rfl : first = first' := Option.some.inj (hfirst.symm.trans hfirst')
          rfl
        · exact absurd hreturns (uncategorised first (by simp))
    | none =>
      have hnone : ∀ op ∈ live, op.returns ≠ some word := by simpa using hfirst
      simp only [List.any_eq_true, decide_eq_true_eq]
      constructor
      · intro h
        split at h
        · next hany =>
          obtain ⟨op, hmem, hname⟩ := hany
          cases h
          exact .operator hatom hnone hmem hname
        · cases h
      · rintro (⟨spelled⟩ | @⟨before, after, first, _, split, declares, _⟩ | ⟨_, _, mem, named⟩)
        · simp [hatom] at spelled
        · exact absurd declares (hnone first (by simp [split]))
        · rw [if_pos ⟨_, mem, named⟩]

theorem exists_standsFor_iff {word : String} :
    (∃ kind, StandsFor live word kind) ↔
      (∃ type, Atom.ofName? word = some type) ∨
        ∃ op ∈ live, op.returns = some word ∨ op.name = word := by
  constructor
  · rintro ⟨kind, ⟨spelled⟩ | @⟨before, after, first, _, rfl, declares, _⟩ | ⟨_, _, mem, named⟩⟩
    · exact Or.inl ⟨_, spelled⟩
    · exact Or.inr ⟨first, by simp, Or.inl declares⟩
    · exact Or.inr ⟨_, mem, Or.inr named⟩
  · intro h
    by_contra hnone
    have hbinding : binding? live word = none := by
      rw [Option.eq_none_iff_forall_ne_some]
      exact fun kind hkind ↦ hnone ⟨kind, binding?_eq_some_iff.mp hkind⟩
    rw [binding?] at hbinding
    split at hbinding
    · cases hbinding
    · next hatom =>
      split at hbinding
      · cases hbinding
      · next hreturns =>
        simp only [ite_eq_right_iff, reduceCtorEq, imp_false, List.any_eq_true,
          decide_eq_true_eq] at hbinding
        rcases h with ⟨type, htype⟩ | ⟨op, hop, hcategory | hname⟩
        · rw [hatom] at htype
          cases htype
        · have hnot := List.find?_eq_none.mp hreturns op hop
          simp [hcategory] at hnot
        · exact hbinding ⟨op, hop, hname⟩

mutual

theorem resolve_eq_ok_iff : {e : KindExpr} → {kind : Kind} →
    (e.resolve (binding? live) = .ok kind ↔ Lowers live e kind)
  | .name word, kind => by
    rw [KindExpr.resolve]
    constructor
    · intro h
      split at h
      · next found hfound =>
        cases h
        exact .name (binding?_eq_some_iff.mp hfound)
      · cases h
    · rintro ⟨hstands⟩
      rw [binding?_eq_some_iff.mpr hstands]
  | .list e, kind => by
    rw [KindExpr.resolve]
    constructor
    · intro h
      split at h
      · next inner hinner =>
        cases h
        exact .list (resolve_eq_ok_iff.mp hinner)
      · cases h
    · rintro (_ | ⟨hinner⟩)
      rw [resolve_eq_ok_iff.mpr hinner]
  | .union es, kind => by
    rw [KindExpr.resolve]
    constructor
    · intro h
      split at h
      · next inner hinner =>
        cases h
        exact .union (resolveAll_eq_ok_iff.mp hinner)
      · cases h
    · rintro (_ | _ | ⟨hinner⟩)
      rw [resolveAll_eq_ok_iff.mpr hinner]

theorem resolveAll_eq_ok_iff : {es : List KindExpr} → {kinds : List Kind} →
    (KindExpr.resolveAll (binding? live) es = .ok kinds ↔ LowersAll live es kinds)
  | [], kinds => by
    rw [KindExpr.resolveAll]
    constructor
    · rintro ⟨⟩
      exact .nil
    · rintro ⟨⟩
      rfl
  | e :: es, kinds => by
    rw [KindExpr.resolveAll]
    constructor
    · intro h
      split at h
      · cases h
      · next kind hkind =>
        split at h
        · cases h
        · next rest hrest =>
          cases h
          exact .cons (resolve_eq_ok_iff.mp hkind) (resolveAll_eq_ok_iff.mp hrest)
    · rintro (_ | ⟨hkind, hrest⟩)
      simp only [resolve_eq_ok_iff.mpr hkind, resolveAll_eq_ok_iff.mpr hrest]

end

theorem resolveArgs_eq_ok_iff {operator : String} {args : List (Argument KindExpr)}
    {lowered : List (Argument Kind)} :
    resolveArgs live operator args = .ok lowered ↔ List.Forall₂ (LowersArg live) args lowered := by
  induction args generalizing lowered with
  | nil =>
    rw [resolveArgs, List.forall₂_nil_left_iff]
    exact ⟨fun h ↦ (Except.ok.inj h).symm, fun h ↦ h ▸ rfl⟩
  | cons arg args ih =>
    rw [resolveArgs, List.forall₂_cons_left_iff]
    constructor
    · intro h
      split at h
      · cases h
      · next kind hkind =>
        split at h
        · cases h
        · next rest hrest =>
          cases h
          exact ⟨_, rest, ⟨rfl, rfl, resolve_eq_ok_iff.mp hkind⟩, ih.mp hrest, rfl⟩
    · rintro ⟨⟨name, kind, initial⟩, rest, ⟨hname, hinitial, hkind⟩, hrest, rfl⟩
      simp only at hname hinitial hkind
      simp only [resolve_eq_ok_iff.mpr hkind, ih.mpr hrest, hname, hinitial]

/-- **Drafts resolve exactly to what they denote**, one by one and in order. -/
theorem resolveDrafts_eq_ok_iff {drafts : List Draft} {ops : List (Operator Kind)} :
    resolveDrafts live drafts = .ok ops ↔ List.Forall₂ (LowersOperator live) drafts ops := by
  induction drafts generalizing ops with
  | nil =>
    rw [resolveDrafts, List.forall₂_nil_left_iff]
    exact ⟨fun h ↦ (Except.ok.inj h).symm, fun h ↦ h ▸ rfl⟩
  | cons draft drafts ih =>
    rw [resolveDrafts, List.forall₂_cons_left_iff]
    constructor
    · intro h
      split at h
      · cases h
      · next args hargs =>
        split at h
        · cases h
        · next rest hrest =>
          cases h
          exact ⟨_, rest, ⟨rfl, rfl, resolveArgs_eq_ok_iff.mp hargs⟩, ih.mp hrest, rfl⟩
    · rintro ⟨⟨name, returns, args⟩, rest, ⟨hname, hreturns, hargs⟩, hrest, rfl⟩
      simp only at hname hreturns hargs
      simp only [resolveArgs_eq_ok_iff.mpr hargs, ih.mpr hrest, hname, hreturns]

mutual

theorem resolve_eq_error_iff {binding : String → Option Kind} :
    {e : KindExpr} → {word : String} →
      (e.resolve binding = .error word ↔ e.names.find? (fun w ↦ (binding w).isNone) = some word)
  | .name word, _ => by
    rw [KindExpr.resolve, KindExpr.names]
    cases hword : binding word with
    | some kind => simp [hword]
    | none => simp [hword]
  | .list e, word => by
    rw [KindExpr.resolve, KindExpr.names, ← resolve_eq_error_iff]
    cases e.resolve binding <;> simp
  | .union es, word => by
    rw [KindExpr.resolve, KindExpr.names, ← resolveAll_eq_error_iff]
    cases KindExpr.resolveAll binding es <;> simp

theorem resolveAll_eq_error_iff {binding : String → Option Kind} :
    {es : List KindExpr} → {word : String} →
      (KindExpr.resolveAll binding es = .error word ↔
        (KindExpr.names.namesOf es).find? (fun w ↦ (binding w).isNone) = some word)
  | [], word => by simp [KindExpr.resolveAll, KindExpr.names.namesOf]
  | e :: es, word => by
    rw [KindExpr.resolveAll, KindExpr.names.namesOf, List.find?_append]
    cases hfirst : e.resolve binding with
    | error first => simp [resolve_eq_error_iff.mp hfirst]
    | ok kind =>
      have hnone : e.names.find? (fun w ↦ (binding w).isNone) = none := by
        rw [Option.eq_none_iff_forall_ne_some]
        intro first hfind
        rw [resolve_eq_error_iff.mpr hfind] at hfirst
        cases hfirst
      rw [hnone, Option.none_or, ← resolveAll_eq_error_iff]
      cases KindExpr.resolveAll binding es <;> simp

end

/-! ## Closed kinds -/

/-- A kind that occurs in another: the kind itself, or inside an element or a variant. -/
inductive Kind.Within (kind : Kind) : Kind → Prop
  | refl : Within kind kind
  | element {element : Kind} (h : Within kind element) : Within kind (.list element)
  | variant {variant : Kind} {variants : List Kind} (mem : variant ∈ variants)
      (h : Within kind variant) : Within kind (.union variants)

theorem Kind.Within.trans {a b c : Kind} (hab : a.Within b) (hbc : b.Within c) : a.Within c := by
  induction hbc with
  | refl => exact hab
  | element _ ih => exact .element ih
  | variant mem _ ih => exact .variant mem ih

/-- An expression without an empty union. -/
inductive KindExpr.Proper : KindExpr → Prop
  | name (word : String) : Proper (.name word)
  | list {e : KindExpr} (h : Proper e) : Proper (.list e)
  | union {es : List KindExpr} (ne : es ≠ []) (h : ∀ e ∈ es, Proper e) : Proper (.union es)

theorem LowersAll.exists_left {es : List KindExpr} {kinds : List Kind} {kind : Kind}
    (h : LowersAll live es kinds) (hmem : kind ∈ kinds) : ∃ e ∈ es, Lowers live e kind := by
  induction kinds generalizing es with
  | nil => cases hmem
  | cons first kinds ih =>
    obtain _ | ⟨hfirst, hrest⟩ := h
    rcases List.mem_cons.mp hmem with rfl | hmem
    · exact ⟨_, List.mem_cons_self, hfirst⟩
    · obtain ⟨e, he, hlowers⟩ := ih hrest hmem
      exact ⟨e, List.mem_cons_of_mem _ he, hlowers⟩

theorem StandsFor.mem_names {word name : String} (h : StandsFor live word (.operator name)) :
    name ∈ live.map (·.name) := by
  obtain _ | @⟨before, after, first, _, rfl, _, _⟩ | ⟨_, _, mem, rfl⟩ := h
  · simp
  · exact List.mem_map_of_mem mem

/-- A kind that occurs in what an expression denotes is what some expression denotes. -/
theorem Lowers.within {e : KindExpr} {kind inner : Kind} (hproper : e.Proper)
    (h : Lowers live e kind) (hinner : inner.Within kind) :
    ∃ e', KindExpr.Proper e' ∧ Lowers live e' inner := by
  induction hinner generalizing e with
  | refl => exact ⟨e, hproper, h⟩
  | element _ ih =>
    rcases h with ⟨⟨⟩⟩ | ⟨h⟩
    obtain _ | ⟨hproper⟩ := hproper
    exact ih hproper h
  | variant mem _ ih =>
    rcases h with ⟨⟨⟩⟩ | _ | ⟨h⟩
    obtain _ | _ | ⟨_, hproper⟩ := hproper
    obtain ⟨e, he, hlowers⟩ := h.exists_left mem
    exact ih (hproper e he) hlowers

/-- What an expression denotes is closed: its operators are live, and it has no empty union. -/
theorem Lowers.closed {e : KindExpr} {kind inner : Kind} (hproper : e.Proper)
    (h : Lowers live e kind) (hinner : inner.Within kind) :
    (∀ name, inner = .operator name → name ∈ live.map (·.name)) ∧ inner ≠ .union [] := by
  obtain ⟨e, hproper, hlowers⟩ := h.within hproper hinner
  constructor
  · rintro name rfl
    obtain ⟨hstands⟩ := hlowers
    exact hstands.mem_names
  · rintro rfl
    rcases hlowers with ⟨⟨⟩⟩ | _ | ⟨⟨⟩⟩
    obtain _ | _ | ⟨ne, _⟩ := hproper
    exact ne rfl

namespace KindExpr

theorem construct_proper {word : String} {items : List KindExpr} {e : KindExpr}
    (hitems : ∀ item ∈ items, item.Proper) (hne : items ≠ [])
    (h : construct word items = .ok e) : e.Proper := by
  unfold construct at h
  split at h
  · cases h
    exact .list (hitems _ List.mem_cons_self)
  · cases h
  · cases h
    exact .union hne hitems
  · cases h

mutual

/-- What is read has no empty union, because the items of a constructor are read before it ends. -/
theorem readKind_proper {size : Nat} {frames : List Frame} {ts : List (Token × Nat)} {e : KindExpr}
    (hframes : ∀ frame ∈ frames, ∀ item ∈ frame.items, item.Proper)
    (h : readKind size frames ts = .ok e) : e.Proper := by
  unfold readKind at h
  split at h
  · exact readKind_proper (by simpa using hframes) h
  · exact readAfter_proper (.name _) hframes h
  · cases h
termination_by ts.length

theorem readAfter_proper {size : Nat} {expr : KindExpr} {frames : List Frame}
    {ts : List (Token × Nat)} {e : KindExpr} (hexpr : expr.Proper)
    (hframes : ∀ frame ∈ frames, ∀ item ∈ frame.items, item.Proper)
    (h : readAfter size expr frames ts = .ok e) : e.Proper := by
  unfold readAfter at h
  split at h
  · split at h
    · cases h
      exact hexpr
    · cases h
  · split at h
    · cases h
    · next frame outer =>
      refine readKind_proper ?_ h
      simp only [List.mem_cons, forall_eq_or_imp, List.mem_append] at hframes ⊢
      refine ⟨fun item hitem ↦ ?_, hframes.2⟩
      rcases hitem with hitem | rfl | hitem
      · exact hframes.1 item hitem
      · exact hexpr
      · cases hitem
    · next frame outer =>
      split at h
      · next whole hwhole =>
        simp only [List.mem_cons, forall_eq_or_imp] at hframes
        refine readAfter_proper (construct_proper ?_ (by simp) hwhole) hframes.2 h
        intro item hitem
        rcases List.mem_append.mp hitem with hitem | hitem
        · exact hframes.1 item hitem
        · exact List.mem_singleton.mp hitem ▸ hexpr
      · cases h
    · cases h
termination_by ts.length

end

theorem read_proper {source : String} {e : KindExpr} (h : read source = .ok e) : e.Proper :=
  readKind_proper (by simp) h

end KindExpr

end FormulaEdit
