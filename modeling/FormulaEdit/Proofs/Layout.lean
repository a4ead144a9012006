import FormulaEdit.Proofs.Readable
import Mathlib.Algebra.Order.BigOperators.Group.List
import Mathlib.Algebra.Order.Ring.Nat

/-!
# The two layouts of a formula

A formula is written on one line or over several. Both layouts have the same characters once the
blanks are taken out, in every formula, of the right shape or not, and whatever its atoms hold.

## When the layouts differ

A sequence, that is the parts of an operator or of a list, goes over several lines when one of the
parts is `Nested`: a sequence with parts of its own, or a union that stands for one. Only what shows
in the text counts, and of a union this is its first part. A formula is `Flat` when no sequence that
shows has a nested part. Then nothing is spread and the texts are the same. Otherwise they differ,
because no text gets shorter when it is spread and the one of a sequence gets longer.
-/

namespace FormulaEdit

open Text

/-! ## Texts without blanks -/

def Text.unspaced (s : String) : String := String.ofList (s.toList.filter fun c ↦ !isBlank c)

theorem Text.unspaced_append (s s' : String) : unspaced (s ++ s') = unspaced s ++ unspaced s' := by
  rw [unspaced, String.toList_append, List.filter_append, String.ofList_append]
  rfl

theorem Text.unspaced_eq_empty {s : String} (h : ∀ c ∈ s.toList, isBlank c = true) :
    unspaced s = "" := by
  have hnone : s.toList.filter (fun c ↦ !isBlank c) = [] := by
    rw [List.filter_eq_nil_iff]
    intro c hc
    rw [h c hc]
    decide
  rw [unspaced, hnone, String.ofList_nil]

theorem Text.toList_unspaced (s : String) :
    (unspaced s).toList = s.toList.filter fun c ↦ !isBlank c := by
  rw [unspaced, String.toList_ofList]

theorem Text.unspaced_intercalate (sep : String) (pieces : List String) :
    unspaced (sep.intercalate pieces) = (unspaced sep).intercalate (pieces.map unspaced) := by
  cases pieces with
  | nil => rfl
  | cons piece pieces =>
    rw [← String.toList_inj, toList_unspaced, toList_intercalate_cons, List.map_cons,
      toList_intercalate_cons, List.filter_append, List.filter_flatMap, List.flatMap_map]
    simp only [List.filter_append, toList_unspaced]

theorem length_intercalate (sep : String) (pieces : List String) :
    (sep.intercalate pieces).length =
      (pieces.map String.length).sum + (pieces.length - 1) * sep.length := by
  cases pieces with
  | nil => simp
  | cons piece pieces =>
    rw [← String.length_toList, toList_intercalate_cons, List.length_append, List.length_flatMap]
    simp only [List.length_append, String.length_toList, List.sum_map_add, List.map_const',
      List.sum_replicate_nat, List.map_cons, List.sum_cons, List.length_cons, Nat.add_sub_cancel]
    omega

/-! ## Sequences -/

/-- Whether the parts of a node of this kind are written between brackets. -/
def Kind.isSequence : Kind → Bool
  | .operator _ | .list _ => true
  | .atom _ | .union _ => false

theorem Kind.atom_or_sequence_or_union (kind : Kind) :
    (∃ type, kind = .atom type) ∨ kind.isSequence = true ∨ ∃ variants, kind = .union variants := by
  match kind with
  | .atom type => exact Or.inl ⟨type, rfl⟩
  | .operator _ | .list _ => exact Or.inr (Or.inl rfl)
  | .union variants => exact Or.inr (Or.inr ⟨variants, rfl⟩)

section Render

variable {node : Node} {parts : List FormulaTree}

theorem renderAt_union_cons {variants : List Kind} (h : node.kind = .union variants)
    (live : FormulaTree) (indent : Option String) (level : Nat) :
    renderAt indent level (.node node (live :: parts)) = renderAt indent level live := by
  rw [renderAt.eq_def]
  simp only [h]

theorem renderAt_union_nil {variants : List Kind} (h : node.kind = .union variants)
    (indent : Option String) (level : Nat) : renderAt indent level (.node node []) = "" := by
  rw [renderAt.eq_def]
  simp only [h]

theorem exists_renderAt_eq_bracketed (h : node.kind.isSequence = true)
    (parts : List FormulaTree) : ∃ opening closing, ∀ indent level,
      renderAt indent level (.node node parts) =
        bracketed (spread? indent parts) level opening closing
          (renderAll indent (innerLevel indent level parts) parts) := by
  match hkind : node.kind with
  | .operator name =>
    refine ⟨name ++ "(", ")", fun indent level ↦ ?_⟩
    rw [renderAt.eq_def]
    simp only [hkind]
    rcases spread? indent parts with _ | step
    · simp only [bracketed, String.append_assoc]
    · simp only [bracketed, String.append_assoc]
  | .list element =>
    refine ⟨"[", "]", fun indent level ↦ ?_⟩
    rw [renderAt.eq_def]
    simp only [hkind]
  | .atom type => rw [hkind] at h; cases h
  | .union variants => rw [hkind] at h; cases h

/-- To relate the texts of every formula in the two layouts, relate those of sequences, given that
the texts of the parts are related. -/
theorem renderAt_related {R : String → String → Prop} {indent : String}
    (hrefl : ∀ text, R text text) (hsequence : ∀ parts level opening closing,
      (∀ part ∈ parts, ∀ level, R (renderAt (some indent) level part) (render part)) →
        R (bracketed (spread? (some indent) parts) level opening closing
            (parts.map (renderAt (some indent) (innerLevel (some indent) level parts))))
          (bracketed none 0 opening closing (parts.map render)))
    (t : FormulaTree) (level : Nat) : R (renderAt (some indent) level t) (render t) := by
  induction t using Tree.induction generalizing level with
  | node node parts ih =>
    rcases node.kind.atom_or_sequence_or_union with ⟨type, hkind⟩ | hkind | ⟨variants, hkind⟩
    · rw [render, renderAt_atom hkind, renderAt_atom hkind]
      exact hrefl _
    · obtain ⟨opening, closing, hrender⟩ := exists_renderAt_eq_bracketed hkind parts
      rw [render, hrender, hrender, renderAll_eq_map, renderAll_eq_map, innerLevel_none,
        spread?_none]
      exact hsequence parts level opening closing ih
    · rcases parts with _ | ⟨live, rest⟩
      · rw [render, renderAt_union_nil hkind, renderAt_union_nil hkind]
        exact hrefl _
      · rw [render, renderAt_union_cons hkind, renderAt_union_cons hkind]
        exact ih live List.mem_cons_self level

end Render

/-! ## The same characters -/

section Characters

variable {indent : String}

theorem unspaced_lineStart (h : ∀ c ∈ indent.toList, isBlank c = true) (level : Nat) :
    unspaced (lineStart indent level) = "" := by
  refine unspaced_eq_empty fun c hc ↦ ?_
  rw [lineStart, String.toList_append, String.toList_join, List.mem_append] at hc
  rcases hc with hbreak | hindent
  · rw [List.mem_singleton.mp hbreak]
    decide
  · obtain ⟨step, hstep, hc⟩ := List.mem_flatMap.mp hindent
    rw [List.eq_of_mem_replicate hstep] at hc
    exact h c hc

theorem unspaced_bracketed {texts texts' : List String}
    (htexts : texts.map unspaced = texts'.map unspaced) {step : Option String}
    (hstep : ∀ indent ∈ step, ∀ c ∈ indent.toList, isBlank c = true) (level level' : Nat)
    (opening closing : String) :
    unspaced (bracketed step level opening closing texts) =
      unspaced (bracketed none level' opening closing texts') := by
  have hcomma : unspaced ", " = unspaced "," := by decide
  rcases step with _ | indent
  · simp only [bracketed, unspaced_append, unspaced_intercalate, htexts]
  · have hline := unspaced_lineStart (hstep indent rfl)
    have hlines : (texts.map (lineStart indent (level + 1) ++ ·)).map unspaced =
        texts.map unspaced := by
      rw [List.map_map]
      refine List.map_congr_left fun text _ ↦ ?_
      rw [Function.comp_apply, unspaced_append, hline, String.empty_append]
    simp only [bracketed, unspaced_append, unspaced_intercalate, hcomma, hlines, htexts, hline,
      String.append_empty]

/-- **Both layouts have the same characters**, at whatever level the formula stands. -/
theorem unspaced_renderAt (h : ∀ c ∈ indent.toList, isBlank c = true) (t : FormulaTree)
    (level : Nat) : unspaced (renderAt (some indent) level t) = unspaced (render t) := by
  refine renderAt_related (R := fun text text' ↦ unspaced text = unspaced text') (fun _ ↦ rfl) ?_
    t level
  intro parts level opening closing hparts
  refine unspaced_bracketed ?_ ?_ level 0 opening closing
  · rw [List.map_map, List.map_map]
    exact List.map_congr_left fun part hpart ↦ hparts part hpart _
  · intro step hstep
    rw [spread?, Option.mem_def] at hstep
    split_ifs at hstep
    · rw [← Option.some.inj hstep]
      exact h

end Characters

/-! ## Flat formulas -/

/-- A sequence with parts, or a union that stands for one. -/
inductive Nested : FormulaTree → Prop
  | sequence {node : Node} {parts : List FormulaTree} (kind : node.kind.isSequence = true)
      (ne : parts ≠ []) : Nested (.node node parts)
  | union {node : Node} {variants : List Kind} {live : FormulaTree} {rest : List FormulaTree}
      (kind : node.kind = .union variants) (nested : Nested live) :
      Nested (.node node (live :: rest))

/-- A part of a formula, or the formula itself, that shows in its text. -/
inductive Shows : FormulaTree → FormulaTree → Prop
  | self (t : FormulaTree) : Shows t t
  | item {node : Node} {parts : List FormulaTree} {part shown : FormulaTree}
      (kind : node.kind.isSequence = true) (mem : part ∈ parts) (shows : Shows part shown) :
      Shows (.node node parts) shown
  | live {node : Node} {variants : List Kind} {live shown : FormulaTree} {rest : List FormulaTree}
      (kind : node.kind = .union variants) (shows : Shows live shown) :
      Shows (.node node (live :: rest)) shown

/-- A formula in which no sequence that shows has a nested part. -/
def Flat (t : FormulaTree) : Prop :=
  ∀ shown, Shows t shown → shown.value.kind.isSequence = true →
    ∀ part ∈ shown.children, ¬Nested part

section Flat

variable {node : Node} {parts : List FormulaTree}

theorem nested_node_iff :
    Nested (.node node parts) ↔ node.kind.isSequence = true ∧ parts ≠ [] ∨
      ∃ variants live rest, node.kind = .union variants ∧ parts = live :: rest ∧ Nested live := by
  constructor
  · rintro (⟨hkind, hne⟩ | ⟨hkind, hlive⟩)
    · exact Or.inl ⟨hkind, hne⟩
    · exact Or.inr ⟨_, _, _, hkind, rfl, hlive⟩
  · rintro (⟨hkind, hne⟩ | ⟨variants, live, rest, hkind, rfl, hlive⟩)
    · exact .sequence hkind hne
    · exact .union hkind hlive

theorem isNested_iff (t : FormulaTree) : isNested t = true ↔ Nested t := by
  fun_induction isNested t with
  | case1 node parts type hkind => simp [nested_node_iff, hkind, Kind.isSequence]
  | case2 node name parts hkind => simp [nested_node_iff, hkind, Kind.isSequence]
  | case3 node element parts hkind => simp [nested_node_iff, hkind, Kind.isSequence]
  | case4 node variants live rest hkind ih => simp [nested_node_iff, hkind, Kind.isSequence, ih]
  | case5 node variants hkind => simp [nested_node_iff, hkind, Kind.isSequence]

theorem spread?_some (indent : String) (parts : List FormulaTree) :
    spread? (some indent) parts = some indent ∧ (∃ part ∈ parts, Nested part) ∨
      spread? (some indent) parts = none ∧ ∀ part ∈ parts, ¬Nested part := by
  rw [spread?]
  by_cases hany : parts.any isNested = true
  · rw [if_pos hany]
    obtain ⟨part, hpart, hnested⟩ := List.any_eq_true.mp hany
    exact Or.inl ⟨rfl, part, hpart, (isNested_iff part).mp hnested⟩
  · rw [if_neg hany]
    refine Or.inr ⟨rfl, fun part hpart hnested ↦ hany ?_⟩
    exact List.any_eq_true.mpr ⟨part, hpart, (isNested_iff part).mpr hnested⟩

theorem flat_of_not_nested {t : FormulaTree} (h : ¬Nested t) : Flat t := by
  intro shown hshows hkind part hpart
  induction hshows with
  | self t =>
    obtain ⟨node, parts⟩ := t
    exact absurd (.sequence hkind (List.ne_nil_of_mem hpart)) h
  | item hsequence hmem _ _ => exact absurd (.sequence hsequence (List.ne_nil_of_mem hmem)) h
  | live hunion _ ih => exact ih (fun hnested ↦ h (.union hunion hnested)) hkind hpart

theorem flat_sequence_iff (h : node.kind.isSequence = true) :
    Flat (.node node parts) ↔ ∀ part ∈ parts, ¬Nested part := by
  constructor
  · intro hflat
    exact hflat _ (.self _) h
  · intro hparts shown hshows
    rcases hshows with _ | ⟨_, hmem, hshows⟩ | ⟨hunion, _⟩
    · exact fun _ ↦ hparts
    · exact flat_of_not_nested (hparts _ hmem) shown hshows
    · rw [hunion] at h
      cases h

theorem flat_union_cons_iff {variants : List Kind} (h : node.kind = .union variants)
    (live : FormulaTree) : Flat (.node node (live :: parts)) ↔ Flat live := by
  constructor
  · intro hflat shown hshows
    exact hflat shown (.live h hshows)
  · intro hflat shown hshows
    rcases hshows with _ | ⟨hsequence, _, _⟩ | ⟨_, hshows⟩
    · intro hsequence
      rw [Tree.value_node, h] at hsequence
      cases hsequence
    · rw [h] at hsequence
      cases hsequence
    · exact hflat shown hshows

/-! ## The same text -/

theorem renderAt_eq_render_of_flat (indent : String) {t : FormulaTree} (h : Flat t) (level : Nat) :
    renderAt (some indent) level t = render t := by
  induction t using Tree.induction generalizing level with
  | node node parts ih =>
    rw [render]
    rcases node.kind.atom_or_sequence_or_union with ⟨type, hkind⟩ | hsequence | ⟨variants, hkind⟩
    · rw [renderAt_atom hkind, renderAt_atom hkind]
    · have hparts := (flat_sequence_iff hsequence).mp h
      obtain ⟨opening, closing, hrender⟩ := exists_renderAt_eq_bracketed hsequence parts
      have hspread : spread? (some indent) parts = none := by
        rcases spread?_some indent parts with ⟨_, part, hpart, hnested⟩ | ⟨hnone, _⟩
        · exact absurd hnested (hparts part hpart)
        · exact hnone
      rw [hrender, hrender, innerLevel_none, innerLevel, hspread, spread?_none,
        if_neg (by simp), renderAll_eq_map, renderAll_eq_map, List.map_congr_left fun part hpart ↦
          ih part hpart (flat_of_not_nested (hparts part hpart)) level]
      rfl
    · rcases parts with _ | ⟨live, rest⟩
      · rw [renderAt_union_nil hkind, renderAt_union_nil hkind]
      · rw [renderAt_union_cons hkind, renderAt_union_cons hkind]
        exact ih live List.mem_cons_self ((flat_union_cons_iff hkind live).mp h) level

/-! ## Longer texts -/

section Length

variable {f f' : FormulaTree → String}

theorem sum_lengths_le (h : ∀ part ∈ parts, (f part).length ≤ (f' part).length) :
    ((parts.map f).map String.length).sum ≤ ((parts.map f').map String.length).sum := by
  rw [List.map_map, List.map_map]
  exact List.sum_le_sum h

theorem length_bracketed_le (h : ∀ part ∈ parts, (f part).length ≤ (f' part).length)
    (level level' : Nat) (opening closing : String) :
    (bracketed none level opening closing (parts.map f)).length ≤
      (bracketed none level' opening closing (parts.map f')).length := by
  have hsum := sum_lengths_le h
  simp only [bracketed, String.length_append, length_intercalate, List.length_map] at hsum ⊢
  omega

/-- Spreading takes a line break before each part and one after the last. -/
theorem length_bracketed_lt (h : ∀ part ∈ parts, (f part).length ≤ (f' part).length)
    (level level' : Nat) (opening closing indent : String) :
    (bracketed none level opening closing (parts.map f)).length <
      (bracketed (some indent) level' opening closing (parts.map f')).length := by
  have hline : ∀ level, 1 ≤ (lineStart indent level).length := by
    intro level
    rw [lineStart, String.length_append]
    exact Nat.le_add_right 1 _
  have hlines : parts.length + ((parts.map f').map String.length).sum ≤
      (((parts.map f').map (lineStart indent (level' + 1) ++ ·)).map String.length).sum := by
    have hlengths : (String.length ∘ (lineStart indent (level' + 1) ++ ·)) ∘ f' =
        fun part ↦ (lineStart indent (level' + 1)).length + (f' part).length := by
      funext part
      exact String.length_append _ _
    rw [List.map_map, List.map_map, List.map_map, hlengths, List.sum_map_add, List.map_const',
      List.sum_replicate_nat]
    exact Nat.add_le_add_right (Nat.le_mul_of_pos_right _ (hline _)) _
  have hsum := sum_lengths_le h
  have hend := hline level'
  simp only [bracketed, String.length_append, length_intercalate, List.length_map] at hsum hlines ⊢
  have hcomma : ", ".length = 2 ∧ ",".length = 1 := by decide
  rw [hcomma.1, hcomma.2]
  omega

end Length

theorem length_render_le (indent : String) (t : FormulaTree) (level : Nat) :
    (render t).length ≤ (renderAt (some indent) level t).length := by
  refine renderAt_related (R := fun text text' ↦ text'.length ≤ text.length) (fun _ ↦ le_rfl) ?_
    t level
  intro parts level opening closing hparts
  have hinner := fun part hpart ↦ hparts part hpart (innerLevel (some indent) level parts)
  rcases spread?_some indent parts with ⟨hspread, _⟩ | ⟨hspread, _⟩
  · rw [hspread]
    exact (length_bracketed_lt hinner 0 level opening closing indent).le
  · rw [hspread]
    exact length_bracketed_le hinner 0 level opening closing

theorem length_render_sequence_lt (indent : String) (h : node.kind.isSequence = true)
    (hparts : ∃ part ∈ parts, Nested part) (level : Nat) :
    (render (.node node parts)).length <
      (renderAt (some indent) level (.node node parts)).length := by
  obtain ⟨opening, closing, hrender⟩ := exists_renderAt_eq_bracketed h parts
  have hspread : spread? (some indent) parts = some indent := by
    rcases spread?_some indent parts with ⟨hsome, _⟩ | ⟨_, hnone⟩
    · exact hsome
    · obtain ⟨part, hpart, hnested⟩ := hparts
      exact absurd hnested (hnone part hpart)
  rw [render, hrender, hrender, renderAll_eq_map, renderAll_eq_map, innerLevel_none, spread?_none,
    hspread]
  exact length_bracketed_lt (fun part _ ↦ length_render_le indent part _) 0 level opening closing
    indent

theorem length_render_lt (indent : String) {t : FormulaTree} (h : ¬Flat t) (level : Nat) :
    (render t).length < (renderAt (some indent) level t).length := by
  induction t using Tree.induction with
  | node node parts ih =>
    rcases node.kind.atom_or_sequence_or_union with ⟨type, hkind⟩ | hsequence | ⟨variants, hkind⟩
    · refine absurd (flat_of_not_nested ?_) h
      rw [nested_node_iff, hkind]
      simp [Kind.isSequence]
    · rw [flat_sequence_iff hsequence] at h
      push Not at h
      exact length_render_sequence_lt indent hsequence h level
    · rcases parts with _ | ⟨live, rest⟩
      · refine absurd (flat_of_not_nested ?_) h
        rw [nested_node_iff, hkind]
        simp [Kind.isSequence]
      · rw [flat_union_cons_iff hkind] at h
        rw [render, renderAt_union_cons hkind, renderAt_union_cons hkind]
        exact ih live List.mem_cons_self h

end Flat

/-- **The layouts differ in blanks only**, and if nothing is nested they do not differ at all. -/
theorem renderIndented_layout {indent : String} (h : ∀ c ∈ indent.toList, isBlank c = true)
    (t : FormulaTree) :
    unspaced (renderIndented indent t) = unspaced (render t) ∧
      (renderIndented indent t = render t ↔ Flat t) := by
  refine ⟨unspaced_renderAt h t 0, fun hsame ↦ ?_, fun hflat ↦ ?_⟩
  · by_contra hflat
    have hlonger := length_render_lt indent hflat 0
    rw [← renderIndented, hsame] at hlonger
    exact lt_irrefl _ hlonger
  · exact renderAt_eq_render_of_flat indent hflat 0

theorem renderIndented_layout_sum :
    let negation : FormulaTree := .node (.plain (.operator "neg")) [.leaf (.ofAtom .number "1")]
    let items : FormulaTree := .node (.plain (.list (.atom .number)))
      [.leaf (.ofAtom .number "2"), .leaf (.ofAtom .number "3")]
    let t : FormulaTree := .node (.plain (.operator "add"))
      [.node (.plain (.union [.atom .number, .operator "neg"])) [negation], items]
    (∀ c ∈ " \t".toList, isBlank c = true) ∧ render t = "add(neg(1), [2, 3])" ∧
      renderIndented " \t" t = "add(\n \tneg(1),\n \t[2, 3]\n)" ∧
      unspaced (renderIndented " \t" t) = unspaced (render t) ∧
      (renderIndented " \t" t = render t ↔ Flat t) := by
  intro negation items t
  have hindent : ∀ c ∈ " \t".toList, isBlank c = true := List.all_eq_true.mp (by decide)
  exact ⟨hindent, by decide +kernel, by decide +kernel, renderIndented_layout hindent t⟩

end FormulaEdit
