import FormulaEdit.Proofs.Build
import FormulaEdit.Proofs.Spot

/-!
# The first defect of a formula

`Grammar.faultIn?` mixes three checks: whether a node has the parts it should have, whether a part
fits its place, and the same of what is below the part. `Defect` says of each node by itself whether
it is bad, with no order of checks. A node is bad because of its own parts, or because of the place
it stands in. A union is answerable for its part, so a part that is none of its variants makes the
union bad and not the part.

The checker finds a fault exactly if some node is bad. The fault is then at the first bad node, with
parents before children and one child before the next, and it says what is bad there.
-/

namespace FormulaEdit

namespace Grammar

/-! ## Bad nodes -/

/-- The parts of a node are wrong in themselves, given their kinds. -/
inductive PartsDefect (g : Grammar) : Kind → List Kind → ShapeCause → Prop
  | atom (type : Atom) {parts : List Kind} (ne : parts ≠ []) :
      PartsDefect g (.atom type) parts .atomChildren
  | unknown {name : String} (parts : List Kind) (missing : g.find? name = none) :
      PartsDefect g (.operator name) parts (.unknownOperator name)
  | arity {name : String} {op : Operator Kind} {parts : List Kind}
      (found : g.find? name = some op) (ne : op.args.length ≠ parts.length) :
      PartsDefect g (.operator name) parts (.wrongArity name op.args.length parts.length)
  | count (variants : List Kind) {parts : List Kind} (ne : parts.length ≠ 1) :
      PartsDefect g (.union variants) parts (.variantCount parts.length)
  | variant {variants : List Kind} {live : Kind}
      (misfit : ∀ variant ∈ variants, g.fits variant live = false) :
      PartsDefect g (.union variants) [live] (.noVariant live)

/-- The kind that is declared for the part at a position, in a list and in an operator with as many
parts as arguments. -/
inductive Slot (g : Grammar) : Kind → (count index : Nat) → Kind → Prop
  | argument {name : String} {op : Operator Kind} {arg : Argument Kind} {index : Nat}
      (found : g.find? name = some op) (get : op.args[index]? = some arg) :
      Slot g (.operator name) op.args.length index arg.kind
  | element (element : Kind) (count index : Nat) : Slot g (.list element) count index element

/-- A bad node, and what is bad about it. -/
inductive Defect (g : Grammar) (t : FormulaTree) : NodePath → ShapeCause → Prop
  | parts {path : NodePath} {part : FormulaTree} {cause : ShapeCause}
      (get : t.get? path = some part)
      (bad : g.PartsDefect part.value.kind (rootKinds part.children) cause) : Defect g t path cause
  | place {path : NodePath} {index : Nat} {parent part : FormulaTree} {place : Kind}
      (get : t.get? path = some parent) (child : parent.children[index]? = some part)
      (slot : g.Slot parent.value.kind parent.children.length index place)
      (misfit : g.fits place part.value.kind = false) :
      Defect g t (path ++ [index]) (.misfit place part.value.kind)

variable {g : Grammar}

theorem Defect.isSome_get? {t : FormulaTree} {path : NodePath} {cause : ShapeCause}
    (h : g.Defect t path cause) : (t.get? path).isSome = true := by
  rcases h with ⟨hget, _⟩ | ⟨hget, hchild, _, _⟩
  · rw [hget]
    rfl
  · rw [Tree.get?_append, hget, Option.bind_some, Tree.get?_cons, hchild]
    rfl

section Node

variable {node : Node} {parts : List FormulaTree} {cause : ShapeCause}

theorem defect_nil_iff :
    g.Defect (.node node parts) [] cause ↔ g.PartsDefect node.kind (rootKinds parts) cause := by
  constructor
  · intro h
    generalize hpath : ([] : NodePath) = path at h
    rcases h with ⟨hget, hbad⟩ | ⟨_, _, _, _⟩
    · rw [← hpath] at hget
      obtain rfl := Option.some.inj hget
      exact hbad
    · simp at hpath
  · intro h
    exact .parts rfl h

/-- A node below the root is bad in the part that it belongs to, or is a part that does not fit its
place. -/
theorem defect_cons_iff {index : Nat} {path : NodePath} :
    g.Defect (.node node parts) (index :: path) cause ↔
      ∃ part, parts[index]? = some part ∧
        (g.Defect part path cause ∨ path = [] ∧ ∃ place,
          g.Slot node.kind parts.length index place ∧ g.fits place part.value.kind = false ∧
            cause = .misfit place part.value.kind) := by
  constructor
  · intro h
    generalize hpath : index :: path = whole at h
    rcases h with ⟨hget, hbad⟩ | @⟨above, last, parent, part, place, hget, hchild, hslot, hmisfit⟩
    · rw [← hpath, Tree.get?_cons] at hget
      obtain ⟨part, hpart, hget⟩ := Option.bind_eq_some_iff.mp hget
      exact ⟨part, hpart, Or.inl (.parts hget hbad)⟩
    · rcases above with _ | ⟨first, above⟩
      · obtain ⟨rfl, rfl⟩ := List.cons.inj hpath
        obtain rfl := Option.some.inj hget
        exact ⟨part, hchild, Or.inr ⟨rfl, place, hslot, hmisfit, rfl⟩⟩
      · obtain ⟨rfl, rfl⟩ := List.cons.inj hpath
        rw [Tree.get?_cons] at hget
        obtain ⟨child, hchild', hget⟩ := Option.bind_eq_some_iff.mp hget
        exact ⟨child, hchild', Or.inl (.place hget hchild hslot hmisfit)⟩
  · rintro ⟨part, hpart, hdefect | ⟨rfl, place, hslot, hmisfit, rfl⟩⟩
    · have hbelow : ∀ rest, (Tree.node node parts).get? (index :: rest) = part.get? rest := by
        intro rest
        rw [Tree.get?_cons, Tree.children_node, hpart, Option.bind_some]
      rcases hdefect with ⟨hget, hbad⟩ | ⟨hget, hchild, hslot, hmisfit⟩
      · exact .parts ((hbelow _).trans hget) hbad
      · have hplace := Defect.place ((hbelow _).trans hget) hchild hslot hmisfit
        exact hplace
    · have hroot : (Tree.node node parts).get? [] = some (.node node parts) := rfl
      have hplace := Defect.place hroot hpart hslot hmisfit
      exact hplace

end Node

/-! ## What the checker expects of the parts of a node -/

section Places

variable {parts : List FormulaTree}

/-- The judgement of the parts of a node is right. Either they are wrong in themselves, or they are
not and what is expected of each is the kind declared for it. A union expects what its part already
fits. -/
def Judges (g : Grammar) (kind : Kind) (parts : List FormulaTree) :
    Except ShapeCause (List Kind) → Prop
  | .error cause => g.PartsDefect kind (rootKinds parts) cause
  | .ok expected =>
    (∀ cause, ¬g.PartsDefect kind (rootKinds parts) cause) ∧
      ∀ index part place, parts[index]? = some part → g.fits place part.value.kind = false →
        (expected[index]? = some place ↔ g.Slot kind parts.length index place)

theorem length_rootKinds (parts : List FormulaTree) : (rootKinds parts).length = parts.length :=
  List.length_map _

theorem judges_atom (type : Atom) : g.Judges (.atom type) parts (g.places (.atom type) parts) := by
  by_cases hparts : parts = []
  · rw [hparts]
    refine ⟨?_, fun index part place hpart ↦ absurd hpart (by simp)⟩
    rintro _ ⟨_, hne⟩
    exact hne rfl
  · rw [places, List.isEmpty_eq_false_iff.mpr hparts]
    refine .atom type ?_
    rwa [rootKinds, ne_eq, List.map_eq_nil_iff]

theorem judges_operator (name : String) :
    g.Judges (.operator name) parts (g.places (.operator name) parts) := by
  cases hop : g.find? name with
  | none =>
    rw [places, hop]
    exact .unknown _ hop
  | some op =>
    rw [places, hop]
    dsimp only
    by_cases hlength : op.args.length = parts.length
    · rw [if_pos hlength]
      constructor
      · rintro _ (_ | ⟨_, hmissing⟩ | ⟨hfound, hne⟩)
        · rw [hop] at hmissing
          cases hmissing
        · obtain rfl := Option.some.inj (hop.symm.trans hfound)
          exact hne (hlength.trans (length_rootKinds parts).symm)
      · intro index part place _ _
        rw [← hlength, List.getElem?_map, Option.map_eq_some_iff]
        constructor
        · rintro ⟨arg, harg, rfl⟩
          exact .argument hop harg
        · intro hslot
          generalize hcount : op.args.length = count at hslot
          rcases hslot with ⟨hfound, harg⟩ | _
          obtain rfl := Option.some.inj (hop.symm.trans hfound)
          exact ⟨_, harg, rfl⟩
    · rw [if_neg hlength]
      rw [← length_rootKinds parts] at hlength ⊢
      exact .arity hop hlength

theorem judges_union (variants : List Kind) :
    g.Judges (.union variants) parts (g.places (.union variants) parts) := by
  by_cases hcount : parts.length = 1
  · obtain ⟨live, rfl⟩ := List.length_eq_one_iff.mp hcount
    rw [places]
    cases hlive : g.liveVariant? variants live.value.kind with
    | none =>
      refine .variant fun variant hvariant ↦ ?_
      by_contra hfits
      rw [Bool.not_eq_false] at hfits
      obtain ⟨index, hindex⟩ := exists_liveVariant? hvariant hfits
      rw [hlive] at hindex
      cases hindex
    | some index =>
      obtain ⟨variant, hvariant, hfits⟩ := liveVariant?_fits hlive
      rw [Option.bind_some, hvariant]
      constructor
      · rintro _ (_ | _ | _ | ⟨_, hne⟩ | hmisfit)
        · exact hne rfl
        · rw [hmisfit variant (List.mem_of_getElem? hvariant)] at hfits
          cases hfits
      · intro position part place hpart hmisfit
        constructor
        · intro hplace
          rcases position with _ | position
          · obtain rfl := Option.some.inj hpart
            obtain rfl := Option.some.inj hplace
            rw [hfits] at hmisfit
            cases hmisfit
          · cases hpart
        · rintro ⟨⟩
  · have hplaces : g.places (.union variants) parts = .error (.variantCount parts.length) := by
      rw [places]
      rintro live rfl
      exact hcount rfl
    rw [hplaces]
    rw [← length_rootKinds parts] at hcount ⊢
    exact .count variants hcount

theorem judges_list (element : Kind) :
    g.Judges (.list element) parts (g.places (.list element) parts) := by
  rw [places]
  constructor
  · rintro _ ⟨⟩
  · intro index part place hpart _
    rw [List.getElem?_map, hpart, Option.map_some, Option.some_inj]
    constructor
    · rintro rfl
      exact .element element parts.length index
    · rintro ⟨⟩
      rfl

theorem judges_places (kind : Kind) (parts : List FormulaTree) :
    g.Judges kind parts (g.places kind parts) := by
  match kind with
  | .atom type => exact judges_atom type
  | .operator name => exact judges_operator name
  | .union variants => exact judges_union variants
  | .list element => exact judges_list element

end Places

end Grammar

/-! ## The first defect -/

/-- The same fault in a formula of which this one is the part at `base`. -/
def ShapeFault.under (base : NodePath) (fault : ShapeFault) : ShapeFault :=
  { fault with path := base ++ fault.path }

namespace Grammar

variable {g : Grammar}

mutual

theorem shapeFault?_append (base path : NodePath) : (t : FormulaTree) →
    g.shapeFault? (base ++ path) t = (g.shapeFault? path t).map (ShapeFault.under base)
  | .node node parts => by
    rw [shapeFault?, shapeFault?]
    cases g.places node.kind parts with
    | error cause => rfl
    | ok expected => exact partsFault?_append base path 0 expected parts

theorem partsFault?_append (base path : NodePath) (index : Nat) (expected : List Kind) :
    (parts : List FormulaTree) → g.partsFault? (base ++ path) index expected parts =
      (g.partsFault? path index expected parts).map (ShapeFault.under base)
  | [] => by rw [partsFault?, partsFault?, Option.map_none]
  | part :: parts => by
    rcases expected with _ | ⟨place, expected⟩
    · rw [partsFault?, partsFault?, Option.map_none]
    · rw [partsFault?, partsFault?, List.append_assoc]
      split_ifs with hfits
      · rw [shapeFault?_append base (path ++ [index]) part,
          partsFault?_append base path (index + 1) expected parts, Option.map_or]
      · rw [Option.map_some, ShapeFault.under]

end

/-- The first of the nodes that are bad, if any is: parents come before children and one child
before the next. -/
def FirstOf (bad : NodePath → ShapeCause → Prop) : Option ShapeFault → Prop
  | none => ∀ path cause, ¬bad path cause
  | some fault =>
    bad fault.path fault.cause ∧
      ∀ path cause, bad path cause → path = fault.path ∨ List.Lex (· < ·) fault.path path

namespace FirstOf

variable {bad bad' : NodePath → ShapeCause → Prop} {fault? fault'? : Option ShapeFault}

theorem congr (h : FirstOf bad fault?) (hbad : ∀ path cause, bad path cause ↔ bad' path cause) :
    FirstOf bad' fault? := by
  have hsame : bad = bad' := by
    funext path cause
    exact propext (hbad path cause)
  rwa [← hsame]

/-- The first in a part is the first among the nodes of the whole that are in the part. -/
theorem under (h : FirstOf bad fault?) (index : Nat) :
    FirstOf (fun path cause ↦ ∃ rest, path = index :: rest ∧ bad rest cause)
      (fault?.map (ShapeFault.under [index])) := by
  rcases fault? with _ | fault
  · rintro _ cause ⟨rest, rfl, hbad⟩
    exact h rest cause hbad
  · refine ⟨⟨fault.path, rfl, h.1⟩, ?_⟩
    rintro _ cause ⟨rest, rfl, hbad⟩
    rcases h.2 rest cause hbad with rfl | hlater
    · exact Or.inl rfl
    · exact Or.inr (.cons hlater)

/-- The first of two sorts, when all of one sort come before all of the other. -/
theorem or (h : FirstOf bad fault?) (h' : FirstOf bad' fault'?)
    (hbefore : ∀ path cause path' cause', bad path cause → bad' path' cause' →
      List.Lex (· < ·) path path') :
    FirstOf (fun path cause ↦ bad path cause ∨ bad' path cause) (fault?.or fault'?) := by
  rcases fault? with _ | fault
  · refine h'.congr fun path cause ↦ ⟨Or.inr, fun hbad ↦ hbad.resolve_left (h path cause)⟩
  · refine ⟨Or.inl h.1, fun path cause hbad ↦ ?_⟩
    rcases hbad with hbad | hbad
    · exact h.2 path cause hbad
    · exact Or.inr (hbefore _ _ _ _ h.1 hbad)

end FirstOf

/-- A bad node in the parts from position `index` on, given what is expected of them. -/
def BadAmong (g : Grammar) (index : Nat) (expected : List Kind) (parts : List FormulaTree)
    (path : NodePath) (cause : ShapeCause) : Prop :=
  ∃ i rest part, path = (index + i) :: rest ∧ parts[i]? = some part ∧
    (g.Defect part rest cause ∨ rest = [] ∧ ∃ place, expected[i]? = some place ∧
      g.fits place part.value.kind = false ∧ cause = .misfit place part.value.kind)

theorem badAmong_cons_iff {index : Nat} {place : Kind} {expected : List Kind} {part : FormulaTree}
    {parts : List FormulaTree} {path : NodePath} {cause : ShapeCause} :
    g.BadAmong index (place :: expected) (part :: parts) path cause ↔
      (∃ rest, path = index :: rest ∧ (g.Defect part rest cause ∨
        rest = [] ∧ g.fits place part.value.kind = false ∧
          cause = .misfit place part.value.kind)) ∨
      g.BadAmong (index + 1) expected parts path cause := by
  constructor
  · rintro ⟨i, rest, other, rfl, hpart, hbad⟩
    rcases i with _ | i
    · obtain rfl := Option.some.inj hpart
      refine Or.inl ⟨rest, rfl, hbad.imp_right ?_⟩
      rintro ⟨hrest, _, hplace, hmisfit⟩
      obtain rfl := Option.some.inj hplace
      exact ⟨hrest, hmisfit⟩
    · exact Or.inr ⟨i, rest, other, by rw [Nat.add_right_comm, Nat.add_assoc], hpart, hbad⟩
  · rintro (⟨rest, rfl, hbad⟩ | ⟨i, rest, other, rfl, hpart, hbad⟩)
    · refine ⟨0, rest, part, rfl, rfl, hbad.imp_right ?_⟩
      rintro ⟨hrest, hmisfit⟩
      exact ⟨hrest, place, rfl, hmisfit⟩
    · exact ⟨i + 1, rest, other, by rw [Nat.add_right_comm, Nat.add_assoc], hpart, hbad⟩

theorem firstOf_partsFault? {parts : List FormulaTree}
    (hparts : ∀ part ∈ parts, FirstOf (g.Defect part) (g.shapeFault? [] part)) (index : Nat)
    {expected : List Kind} (hlength : expected.length = parts.length) :
    FirstOf (g.BadAmong index expected parts) (g.partsFault? [] index expected parts) := by
  induction parts generalizing index expected with
  | nil =>
    rw [partsFault?]
    rintro path cause ⟨i, rest, part, _, hpart, _⟩
    cases hpart
  | cons part parts ih =>
    obtain ⟨place, expected, rfl⟩ := List.exists_cons_of_length_eq_add_one hlength
    rw [List.forall_mem_cons] at hparts
    have hrest := ih hparts.2 (index + 1) (Nat.succ.inj hlength)
    have hlater : ∀ rest path cause, g.BadAmong (index + 1) expected parts path cause →
        List.Lex (· < ·) (index :: rest) path := by
      rintro rest _ cause ⟨i, rest', other, rfl, _⟩
      exact .rel (by omega)
    rw [partsFault?]
    by_cases hfits : g.fits place part.value.kind = true
    · have hpart : g.shapeFault? ([] ++ [index]) part =
          (g.shapeFault? [] part).map (ShapeFault.under [index]) :=
        shapeFault?_append [index] [] part
      rw [if_pos hfits, hpart]
      refine ((hparts.1.under index).or hrest ?_).congr fun path cause ↦ ?_
      · rintro _ _ path cause ⟨rest, rfl, _⟩ hbad
        exact hlater rest path cause hbad
      · rw [badAmong_cons_iff]
        simp only [hfits, Bool.true_eq_false, false_and, and_false, or_false]
    · rw [if_neg hfits]
      have hmisfit : g.fits place part.value.kind = false := Bool.not_eq_true _ ▸ hfits
      refine ⟨badAmong_cons_iff.mpr (Or.inl ⟨[], rfl, Or.inr ⟨rfl, hmisfit, rfl⟩⟩), ?_⟩
      intro path cause hbad
      rcases badAmong_cons_iff.mp hbad with ⟨rest, rfl, _⟩ | hbad
      · rcases rest with _ | ⟨next, rest⟩
        · exact Or.inl rfl
        · exact Or.inr (.cons .nil)
      · exact Or.inr (hlater [] path cause hbad)

/-- Where nothing is wrong with the parts of a node in themselves, the bad nodes of the formula are
those among its parts. -/
theorem badAmong_iff_defect {node : Node} {parts : List FormulaTree} {expected : List Kind}
    (h : g.Judges node.kind parts (.ok expected)) (path : NodePath) (cause : ShapeCause) :
    g.BadAmong 0 expected parts path cause ↔ g.Defect (.node node parts) path cause := by
  rcases path with _ | ⟨index, path⟩
  · rw [defect_nil_iff]
    refine iff_of_false ?_ (h.1 cause)
    rintro ⟨_, _, _, hpath, _⟩
    cases hpath
  · rw [defect_cons_iff]
    constructor
    · rintro ⟨i, rest, part, hpath, hpart, hbad⟩
      rw [Nat.zero_add] at hpath
      obtain ⟨rfl, rfl⟩ := List.cons.inj hpath
      refine ⟨part, hpart, hbad.imp_right ?_⟩
      rintro ⟨hrest, place, hplace, hmisfit, hcause⟩
      exact ⟨hrest, place, (h.2 _ _ _ hpart hmisfit).mp hplace, hmisfit, hcause⟩
    · rintro ⟨part, hpart, hbad⟩
      refine ⟨index, path, part, by rw [Nat.zero_add], hpart, hbad.imp_right ?_⟩
      rintro ⟨hrest, place, hslot, hmisfit, hcause⟩
      exact ⟨hrest, place, (h.2 _ _ _ hpart hmisfit).mpr hslot, hmisfit, hcause⟩

/-- **The checker stops at the first bad node** of a formula, if there is one. -/
theorem firstOf_faultIn? (t : FormulaTree) : FirstOf (g.Defect t) (g.faultIn? t) := by
  rw [faultIn?]
  induction t using Tree.induction with
  | node node parts ih =>
    have hjudges := judges_places (g := g) node.kind parts
    rw [shapeFault?]
    cases hplaces : g.places node.kind parts with
    | error cause =>
      rw [hplaces] at hjudges
      refine ⟨defect_nil_iff.mpr hjudges, fun path _ _ ↦ ?_⟩
      rcases path with _ | ⟨index, path⟩
      · exact Or.inl rfl
      · exact Or.inr .nil
    | ok expected =>
      rw [hplaces] at hjudges
      exact (firstOf_partsFault? ih 0 (places_length hplaces)).congr (badAmong_iff_defect hjudges)

/-- **The checker is sound, complete and reports the first defect.** It accepts a formula exactly if
no node is bad. Where it does not, the fault is at a node of the formula that is bad for the reason
given, and every bad node is that one or comes after it, parents being before children and one child
before the next. -/
theorem faultIn?_first (g : Grammar) (t : FormulaTree) :
    (g.faultIn? t = none ↔ ∀ path cause, ¬g.Defect t path cause) ∧
      ∀ fault, g.faultIn? t = some fault →
        (t.get? fault.path).isSome = true ∧ g.Defect t fault.path fault.cause ∧
          ∀ path cause, g.Defect t path cause →
            path = fault.path ∨ List.Lex (· < ·) fault.path path := by
  have hfirst := firstOf_faultIn? (g := g) t
  cases hfault : g.faultIn? t with
  | none =>
    rw [hfault] at hfirst
    exact ⟨iff_of_true rfl hfirst, fun fault h ↦ by cases h⟩
  | some fault =>
    rw [hfault] at hfirst
    refine ⟨iff_of_false (by simp) fun hnone ↦ hnone _ _ hfirst.1, ?_⟩
    rintro _ ⟨⟩
    exact ⟨hfirst.1.isSome_get?, hfirst⟩

theorem faultIn?_first_terms :
    let g : Grammar := ⟨[⟨"flag", some "Term", [⟨"value", .atom .bool, none⟩]⟩,
      ⟨"all", some "Term", [⟨"terms", .list (.operator "flag"), none⟩]⟩]⟩
    let flag : FormulaTree := .leaf (.plain (.operator "flag"))
    let number : FormulaTree := .leaf (.ofAtom .number "1")
    let terms : FormulaTree := .node (.plain (.list (.operator "flag"))) [flag, number]
    let t : FormulaTree := .node (.plain (.operator "all")) [terms]
    let fault : ShapeFault := ⟨[0, 0], .wrongArity "flag" 1 0⟩
    g.faultIn? t = some fault ∧ g.Defect t [0, 0] (.wrongArity "flag" 1 0) ∧
      g.Defect t [0, 1] (.misfit (.operator "flag") (.atom .number)) ∧
      ∀ path cause, g.Defect t path cause → path = [0, 0] ∨ List.Lex (· < ·) [0, 0] path := by
  intro g flag number terms t fault
  have hfault : g.faultIn? t = some fault := by decide +kernel
  have hterms : t.get? [0] = some terms := rfl
  have hchild : terms.children[1]? = some number := rfl
  have hnumber := Defect.place hterms hchild (.element (.operator "flag") 2 1)
    (by decide +kernel : g.fits (.operator "flag") number.value.kind = false)
  obtain ⟨_, hdefect, hfirst⟩ := (faultIn?_first g t).2 fault hfault
  exact ⟨hfault, hdefect, hnumber, hfirst⟩

end Grammar

end FormulaEdit
