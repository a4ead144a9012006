import FormulaEdit.Proofs.AtomText
import FormulaEdit.Proofs.Reach

/-!
# Unique readability

A formula without unions can be read off its text. Two formulas of one grammar that have the same
text have the same kinds at the same places and the same texts in their atoms, if the names of
operators contain no bracket and no comma and the texts of atoms are valid.

The induction is on one of the formulas, with what follows its text left open: the text of a part is
followed by a comma, a closing bracket or nothing. So the statement is that a formula can be told
from what follows it (`Reads`). The name of an operator ends at the first bracket. It gives the
kinds of the arguments up to the names of operators, which is all that is needed to read them. The
number of items of a list is not known beforehand, but no item starts with the closing bracket.
-/

namespace FormulaEdit

/-! ## Texts of formulas -/

/-- The texts of parts, each after a comma and a blank. -/
def continued (parts : List FormulaTree) : List Char :=
  parts.flatMap fun part ↦ ',' :: ' ' :: (render part).toList

def enumerated : List FormulaTree → List Char
  | [] => []
  | part :: parts => (render part).toList ++ continued parts

theorem renderAll_eq_map (indent : Option String) (level : Nat) (parts : List FormulaTree) :
    renderAll indent level parts = parts.map (renderAt indent level) := by
  induction parts with
  | nil => rw [renderAll, List.map_nil]
  | cons part parts ih => rw [renderAll, ih, List.map_cons]

theorem toList_intercalate_render (parts : List FormulaTree) :
    (", ".intercalate (parts.map render)).toList = enumerated parts := by
  cases parts with
  | nil => rfl
  | cons part parts =>
    rw [List.map_cons, toList_intercalate_cons, List.flatMap_map]
    rfl

section Render

variable {node : Node} {parts : List FormulaTree}

theorem spread?_none (parts : List FormulaTree) : spread? none parts = none := by
  rw [spread?, ite_self]

theorem innerLevel_none (level : Nat) : innerLevel none level parts = level := by
  rw [innerLevel, spread?_none]
  rfl

theorem toList_bracketed (opening closing : String) :
    (bracketed (spread? none parts) 0 opening closing
      (renderAll none (innerLevel none 0 parts) parts)).toList =
      opening.toList ++ (enumerated parts ++ closing.toList) := by
  have htexts : renderAll none 0 parts = parts.map render := renderAll_eq_map none 0 parts
  rw [spread?_none, innerLevel_none, htexts, bracketed, String.toList_append,
    String.toList_append, toList_intercalate_render, List.append_assoc]

theorem renderAt_atom {type : Atom} (h : node.kind = .atom type) (indent : Option String)
    (level : Nat) : renderAt indent level (.node node parts) = node.input := by
  rw [renderAt.eq_def]
  simp only [h]

theorem render_atom {type : Atom} (h : node.kind = .atom type) :
    render (.node node parts) = node.input :=
  renderAt_atom h none 0

theorem toList_render_operator {name : String} (h : node.kind = .operator name) :
    (render (.node node parts)).toList = name.toList ++ '(' :: (enumerated parts ++ [')']) := by
  rw [render, renderAt.eq_def]
  simp only [h]
  rw [String.toList_append, toList_bracketed]
  rfl

theorem toList_render_list {element : Kind} (h : node.kind = .list element) :
    (render (.node node parts)).toList = '[' :: (enumerated parts ++ [']']) := by
  rw [render, renderAt.eq_def]
  simp only [h]
  rw [toList_bracketed]
  rfl

end Render

/-! ## What a text determines -/

namespace Tree

variable {α β γ : Type}

mutual

/-- Where what one function says of a value determines what another says, it does so of trees. -/
theorem map_eq_map_of_all {f : α → β} {f' : α → γ} {p : α → Prop}
    (h : ∀ a b, p a → p b → f a = f b → f' a = f' b) :
    (t t' : Tree α) → t.All p → t'.All p → t.map f = t'.map f → t.map f' = t'.map f'
  | .node a children, .node b children' => by
    intro ht ht' hmap
    obtain ⟨ha, hchildren⟩ := all_node_iff.mp ht
    obtain ⟨hb, hchildren'⟩ := all_node_iff.mp ht'
    rw [map_node, map_node] at hmap ⊢
    obtain ⟨hvalue, hmaps⟩ := Tree.node.inj hmap
    rw [h a b ha hb hvalue, maps_eq_maps_of_all h children children' hchildren hchildren' hmaps]

theorem maps_eq_maps_of_all {f : α → β} {f' : α → γ} {p : α → Prop}
    (h : ∀ a b, p a → p b → f a = f b → f' a = f' b) :
    (ts ts' : List (Tree α)) → (∀ t ∈ ts, t.All p) → (∀ t ∈ ts', t.All p) →
      ts.map (map f) = ts'.map (map f) → ts.map (map f') = ts'.map (map f')
  | [], [] => fun _ _ _ ↦ rfl
  | [], _ :: _ => fun _ _ hmaps ↦ by cases hmaps
  | _ :: _, [] => fun _ _ hmaps ↦ by cases hmaps
  | t :: ts, t' :: ts' => by
    intro hts hts' hmaps
    rw [List.forall_mem_cons] at hts hts'
    obtain ⟨hmap, hmaps⟩ := List.cons.inj hmaps
    rw [List.map_cons, List.map_cons, map_eq_map_of_all h t t' hts.1 hts'.1 hmap,
      maps_eq_maps_of_all h ts ts' hts.2 hts'.2 hmaps]

end

end Tree

/-- The kind of a node, and the text of an atom. -/
def Node.content (node : Node) : Kind × Option String :=
  match node.kind with
  | .atom type => (.atom type, some node.input)
  | kind => (kind, none)

theorem Node.content_of_atom {node : Node} {type : Atom} (h : node.kind = .atom type) :
    node.content = (.atom type, some node.input) := by
  rw [content, h]

theorem Node.content_of_not_atom {node : Node} (h : ∀ type, node.kind ≠ .atom type) :
    node.content = (node.kind, none) := by
  rw [content]
  split
  · next type hkind => exact absurd hkind (h type)
  · rfl

theorem Node.content_fst (node : Node) : node.content.1 = node.kind := by
  rw [content]
  split
  · next type hkind => exact hkind.symm
  · rfl

theorem Node.setOpen_eq_of_content {a b : Node} (ha : a.Coherent) (hb : b.Coherent)
    (h : a.content = b.content) : a.setOpen true = b.setOpen true := by
  have hkind : a.kind = b.kind := by
    rw [← a.content_fst, h, b.content_fst]
  by_cases hatom : ∃ type, b.kind = .atom type
  · obtain ⟨type, hb'⟩ := hatom
    have ha' : a.kind = .atom type := hkind.trans hb'
    have hinput : a.input = b.input := by
      rw [content_of_atom ha', content_of_atom hb'] at h
      exact Option.some.inj (Prod.mk.inj h).2
    have hinvalid : a.flags.invalid = b.flags.invalid := by
      have hentry := ha.entry ha'
      rw [hinput, hb.entry hb'] at hentry
      exact (Prod.mk.inj hentry).2.symm
    simp only [setOpen, hkind, hinput, hinvalid]
  · rw [not_exists] at hatom
    exact congrArg (·.setOpen true) (setOpen_eq hatom hkind ha.bare hb.bare)

/-- A node that is no union, with a valid text if it is an atom. -/
def Node.Definite (node : Node) : Prop :=
  match node.kind with
  | .atom type => type.check node.input = .ok node.input
  | .union _ => False
  | _ => True

/-- Kinds that are equal, or both operators. -/
def Kind.Alike (a b : Kind) : Prop :=
  a = b ∨ ∃ name name', a = .operator name ∧ b = .operator name'

theorem Kind.Alike.eq_of_not_operator {a b : Kind} (h : a.Alike b)
    (ha : ∀ name, a ≠ .operator name) : b = a := by
  rcases h with rfl | ⟨name, _, hname, _⟩
  · rfl
  · exact absurd hname (ha name)

theorem Kind.Alike.exists_operator {name : String} {b : Kind} (h : (Kind.operator name).Alike b) :
    ∃ name', b = .operator name' := by
  rcases h with rfl | ⟨_, name', _, rfl⟩
  · exact ⟨name, rfl⟩
  · exact ⟨name', rfl⟩

namespace Grammar

/-- A grammar in which no name of an operator contains a bracket or a comma. -/
def PlainNames (g : Grammar) : Prop :=
  ∀ name ∈ g.names, ∀ c ∈ name.toList, c ∉ ['(', ')', '[', ']', ',']

/-- A formula of the grammar without unions, in which the texts of atoms are valid. -/
structure Legible (g : Grammar) (t : FormulaTree) : Prop where
  /-- Every node is made up of parts that fit. -/
  shaped : g.Shaped t
  /-- No node is a union, and the texts of atoms are valid. -/
  definite : t.All Node.Definite

variable {g : Grammar}

theorem alike_of_fits {expected a b : Kind} (ha : g.fits expected a = true)
    (hb : g.fits expected b = true) : a.Alike b := by
  rcases fits_iff.mp (fits_trans (fits_symm ha) hb) with rfl | ⟨name, name', rfl, rfl, _⟩
  · exact Or.inl rfl
  · exact Or.inr ⟨name, name', rfl, rfl⟩

theorem Legible.part {node : Node} {parts : List FormulaTree} (h : g.Legible (.node node parts))
    {part : FormulaTree} (hpart : part ∈ parts) : g.Legible part :=
  ⟨(shaped_node_iff.mp h.shaped).2 part hpart, (Tree.all_node_iff.mp h.definite).2 part hpart⟩

theorem Legible.exists_head (hg : g.PlainNames) {t : FormulaTree} (h : g.Legible t) :
    ∃ c cs, (render t).toList = c :: cs ∧ isMark c = false := by
  obtain ⟨node, parts⟩ := t
  have hdefinite := (Tree.all_node_iff.mp h.definite).1
  rw [Node.Definite] at hdefinite
  cases hkind : node.kind with
  | atom type =>
    rw [hkind] at hdefinite
    rw [render_atom hkind]
    exact Atom.exists_head_of_check hdefinite
  | operator name =>
    rw [toList_render_operator hkind]
    cases hname : name.toList with
    | nil => exact ⟨'(', _, rfl, rfl⟩
    | cons c cs =>
      have haccepts := (shaped_node_iff.mp h.shaped).1
      rw [hkind] at haccepts
      obtain ⟨op, hop, _⟩ := haccepts
      have hplain := hg name (mem_names_of_find? hop) c (hname ▸ List.mem_cons_self)
      refine ⟨c, _, rfl, ?_⟩
      rw [← Bool.not_eq_true, isMark_iff]
      rintro (rfl | rfl | rfl) <;> simp at hplain
  | union variants =>
    rw [hkind] at hdefinite
    exact hdefinite.elim
  | list element =>
    rw [toList_render_list hkind]
    exact ⟨'[', _, rfl, rfl⟩

/-! ## Reading parts -/

/-- A formula that can be told from what follows it, among those of like kinds. -/
def Reads (g : Grammar) (t : FormulaTree) : Prop :=
  g.Legible t → ∀ t' rest rest', g.Legible t' → t.value.kind.Alike t'.value.kind →
    Delimited rest → Delimited rest' → (render t).toList ++ rest = (render t').toList ++ rest' →
      t.map Node.content = t'.map Node.content ∧ rest = rest'

section Parts

variable {parts parts' : List FormulaTree} {close : Char} {rest rest' : List Char}

theorem delimited_continued (hclose : isMark close = true) :
    Delimited (continued parts ++ close :: rest) := by
  cases parts with
  | nil =>
    rintro c ⟨⟩
    exact hclose
  | cons part parts =>
    rintro c ⟨⟩
    rfl

/-- Parts that stand one after the other, up to a closing bracket, can be told from each other. -/
theorem continued_inj (hclose : isMark close = true) (hcomma : close ≠ ',')
    (hreads : ∀ part ∈ parts, g.Reads part) (hparts : ∀ part ∈ parts, g.Legible part)
    (hparts' : ∀ part ∈ parts', g.Legible part)
    (halike : ∀ p ∈ parts.zip parts', p.1.value.kind.Alike p.2.value.kind)
    (h : continued parts ++ close :: rest = continued parts' ++ close :: rest') :
    parts.map (Tree.map Node.content) = parts'.map (Tree.map Node.content) ∧ rest = rest' := by
  -- the next character is a comma or the closing bracket, so the lists of parts end together
  induction parts generalizing parts' with
  | nil =>
    cases parts' with
    | nil => exact ⟨rfl, (List.cons.inj h).2⟩
    | cons part' parts' => exact absurd (List.cons.inj h).1 hcomma
  | cons part parts ih =>
    cases parts' with
    | nil => exact absurd (List.cons.inj h).1.symm hcomma
    | cons part' parts' =>
      rw [List.zip_cons_cons, List.forall_mem_cons] at halike
      rw [List.forall_mem_cons] at hreads hparts hparts'
      have htexts : (render part).toList ++ (continued parts ++ close :: rest) =
          (render part').toList ++ (continued parts' ++ close :: rest') := by
        rw [← List.append_assoc, ← List.append_assoc]
        exact (List.cons.inj (List.cons.inj h).2).2
      obtain ⟨hpart, hrest⟩ := hreads.1 hparts.1 part' _ _ hparts'.1 halike.1
        (delimited_continued hclose) (delimited_continued hclose) htexts
      obtain ⟨hmaps, hrest⟩ := ih hreads.2 hparts.2 hparts'.2 halike.2 hrest
      rw [List.map_cons, List.map_cons, hpart, hmaps]
      exact ⟨rfl, hrest⟩

theorem enumerated_inj (hg : g.PlainNames) (hclose : isMark close = true) (hcomma : close ≠ ',')
    (hreads : ∀ part ∈ parts, g.Reads part) (hparts : ∀ part ∈ parts, g.Legible part)
    (hparts' : ∀ part ∈ parts', g.Legible part)
    (halike : ∀ p ∈ parts.zip parts', p.1.value.kind.Alike p.2.value.kind)
    (h : enumerated parts ++ close :: rest = enumerated parts' ++ close :: rest') :
    parts.map (Tree.map Node.content) = parts'.map (Tree.map Node.content) ∧ rest = rest' := by
  -- no part starts with the closing bracket
  have hstart : ∀ {part parts tail tail'}, g.Legible part →
      close :: tail ≠ enumerated (part :: parts) ++ tail' := by
    intro part parts tail tail' hpart heq
    obtain ⟨c, cs, htext, hmark⟩ := hpart.exists_head hg
    rw [enumerated, htext] at heq
    obtain rfl := (List.cons.inj heq).1
    rw [hclose] at hmark
    cases hmark
  cases parts with
  | nil =>
    cases parts' with
    | nil => exact ⟨rfl, (List.cons.inj h).2⟩
    | cons part' parts' => exact absurd h (hstart (hparts' part' List.mem_cons_self))
  | cons part parts =>
    cases parts' with
    | nil => exact absurd h.symm (hstart (hparts part List.mem_cons_self))
    | cons part' parts' =>
      exact continued_inj hclose hcomma hreads hparts hparts' halike
        (congrArg (fun cs ↦ ',' :: ' ' :: cs) h)

end Parts

/-! ## Reading formulas -/

section Nodes

variable {node node' : Node} {parts parts' : List FormulaTree}

theorem Legible.atom {type : Atom} (h : g.Legible (.node node parts))
    (hkind : node.kind = .atom type) : type.check node.input = .ok node.input ∧ parts = [] := by
  have hdefinite := (Tree.all_node_iff.mp h.definite).1
  have haccepts := (shaped_node_iff.mp h.shaped).1
  rw [Node.Definite, hkind] at hdefinite
  rw [hkind] at haccepts
  exact ⟨hdefinite, List.map_eq_nil_iff.mp haccepts⟩

theorem Legible.operator {name : String} (h : g.Legible (.node node parts))
    (hkind : node.kind = .operator name) :
    ∃ op, g.find? name = some op ∧
      List.Forall₂ (fun arg part ↦ g.fits arg.kind part.value.kind = true) op.args parts := by
  have haccepts := (shaped_node_iff.mp h.shaped).1
  rw [hkind] at haccepts
  obtain ⟨op, hop, hfits⟩ := haccepts
  exact ⟨op, hop, List.forall₂_map_right_iff.mp hfits⟩

theorem reads_atom {type : Atom} (hkind : node.kind = .atom type) :
    g.Reads (.node node parts) := by
  rintro h ⟨node', parts'⟩ rest rest' h' halike hrest hrest' htexts
  have hkind' : node'.kind = .atom type := by
    rw [← hkind]
    exact halike.eq_of_not_operator (by simp [Tree.value, hkind])
  obtain ⟨hcheck, rfl⟩ := h.atom hkind
  obtain ⟨hcheck', rfl⟩ := h'.atom hkind'
  rw [render_atom hkind, render_atom hkind'] at htexts
  obtain ⟨hinput, hrest⟩ := Atom.append_inj_of_check hcheck hcheck' hrest hrest' htexts
  rw [Tree.map_node, Tree.map_node, Node.content_of_atom hkind, Node.content_of_atom hkind', hinput]
  exact ⟨rfl, hrest⟩

theorem reads_between (hg : g.PlainNames) {close : Char} {rest rest' : List Char}
    (hclose : isMark close = true) (hcomma : close ≠ ',') (hkind : node.kind = node'.kind)
    (hatom : ∀ type, node.kind ≠ .atom type) (hreads : ∀ part ∈ parts, g.Reads part)
    (h : g.Legible (.node node parts)) (h' : g.Legible (.node node' parts'))
    (halike : ∀ p ∈ parts.zip parts', p.1.value.kind.Alike p.2.value.kind)
    (htexts : enumerated parts ++ close :: rest = enumerated parts' ++ close :: rest') :
    (Tree.node node parts).map Node.content = (Tree.node node' parts').map Node.content ∧
      rest = rest' := by
  obtain ⟨hmaps, hrest⟩ := enumerated_inj hg hclose hcomma hreads (fun _ ↦ h.part)
    (fun _ ↦ h'.part) halike htexts
  have hcontent : node.content = node'.content := by
    rw [Node.content_of_not_atom hatom, Node.content_of_not_atom (hkind ▸ hatom), hkind]
  rw [Tree.map_node, Tree.map_node, hcontent, hmaps]
  exact ⟨rfl, hrest⟩

theorem reads_operator (hg : g.PlainNames) {name : String} (hkind : node.kind = .operator name)
    (hreads : ∀ part ∈ parts, g.Reads part) : g.Reads (.node node parts) := by
  rintro h ⟨node', parts'⟩ rest rest' h' halike - - htexts
  obtain ⟨name', hkind'⟩ : ∃ name', node'.kind = .operator name' := by
    rw [Tree.value_node, hkind] at halike
    exact halike.exists_operator
  obtain ⟨op, hop, hfits⟩ := h.operator hkind
  obtain ⟨op', hop', hfits'⟩ := h'.operator hkind'
  -- the names end at the first bracket
  have hfree : ∀ {other found}, g.find? other = some found →
      ∀ c ∈ other.toList, (c == '(') = false := by
    intro other found hfound c hc
    rw [beq_eq_false_iff_ne]
    rintro rfl
    exact hg other (mem_names_of_find? hfound) _ hc (by simp)
  have hopening : ∀ {cs : List Char}, ∀ c ∈ ('(' :: cs).head?, (c == '(') = true := by
    rintro cs c ⟨⟩
    rfl
  rw [toList_render_operator hkind, toList_render_operator hkind', List.append_assoc,
    List.append_assoc] at htexts
  obtain ⟨hname, htails⟩ :=
    append_inj_of_free (hfree hop) (hfree hop') hopening hopening htexts
  obtain rfl := String.toList_inj.mp hname
  obtain rfl := Option.some.inj (hop.symm.trans hop')
  have hkinds : List.Forall₂ (fun part part' ↦ part.value.kind.Alike part'.value.kind) parts
      parts' :=
    forall₂_of_common hfits hfits' fun arg part _ part' _ hpart hpart' ↦ alike_of_fits hpart hpart'
  have hparts : enumerated parts ++ ')' :: rest = enumerated parts' ++ ')' :: rest' := by
    simpa using htails
  exact reads_between hg rfl (by decide) (hkind.trans hkind'.symm) (by simp [hkind]) hreads h h'
    (fun p hp ↦ (List.forall₂_iff_zip.mp hkinds).2 hp) hparts

theorem reads_list (hg : g.PlainNames) {element : Kind} (hkind : node.kind = .list element)
    (hreads : ∀ part ∈ parts, g.Reads part) : g.Reads (.node node parts) := by
  rintro h ⟨node', parts'⟩ rest rest' h' halike - - htexts
  have hkind' : node'.kind = .list element := by
    rw [← hkind]
    exact halike.eq_of_not_operator (by simp [Tree.value, hkind])
  have hfits := (shaped_node_iff.mp h.shaped).1
  have hfits' := (shaped_node_iff.mp h'.shaped).1
  rw [hkind] at hfits
  rw [hkind'] at hfits'
  have hkinds : ∀ p ∈ parts.zip parts', p.1.value.kind.Alike p.2.value.kind := by
    intro p hp
    obtain ⟨hleft, hright⟩ := List.of_mem_zip hp
    exact alike_of_fits (hfits _ (List.mem_map_of_mem hleft))
      (hfits' _ (List.mem_map_of_mem hright))
  rw [toList_render_list hkind, toList_render_list hkind'] at htexts
  have hparts : enumerated parts ++ ']' :: rest = enumerated parts' ++ ']' :: rest' := by
    simpa using htexts
  exact reads_between hg rfl (by decide) (hkind.trans hkind'.symm) (by simp [hkind]) hreads h h'
    hkinds hparts

theorem reads_node (hg : g.PlainNames) (hreads : ∀ part ∈ parts, g.Reads part) :
    g.Reads (.node node parts) := by
  cases hkind : node.kind with
  | atom type => exact reads_atom hkind
  | operator name => exact reads_operator hg hkind hreads
  | list element => exact reads_list hg hkind hreads
  | union variants =>
    intro h
    have hdefinite := (Tree.all_node_iff.mp h.definite).1
    rw [Node.Definite, hkind] at hdefinite
    exact hdefinite.elim

end Nodes

mutual

theorem reads (hg : g.PlainNames) : (t : FormulaTree) → g.Reads t
  | .node _ parts => reads_node hg (reads_all hg parts)

theorem reads_all (hg : g.PlainNames) : (parts : List FormulaTree) → ∀ part ∈ parts, g.Reads part
  | [] => fun _ h ↦ absurd h List.not_mem_nil
  | part :: parts => List.forall_mem_cons.mpr ⟨reads hg part, reads_all hg parts⟩

end

/-- **Unique readability.** Formulas of a grammar that have the same text, no union and valid texts
in their atoms have the same kinds at the same places and the same texts in their atoms. If the rest
of what nodes remember is as edits leave it, then they differ only in which nodes are folded. -/
theorem unique_readability (hg : g.PlainNames) {t t' : FormulaTree} (ht : g.faultIn? t = none)
    (ht' : g.faultIn? t' = none) {name name' : String} (hroot : t.value.kind = .operator name)
    (hroot' : t'.value.kind = .operator name') (hdefinite : t.All Node.Definite)
    (hdefinite' : t'.All Node.Definite) (h : render t = render t') :
    t.map Node.content = t'.map Node.content ∧
      (t.All Node.Coherent → t'.All Node.Coherent →
        t.map (·.setOpen true) = t'.map (·.setOpen true)) := by
  have hlegible : g.Legible t := ⟨faultIn?_eq_none_iff.mp ht, hdefinite⟩
  have hlegible' : g.Legible t' := ⟨faultIn?_eq_none_iff.mp ht', hdefinite'⟩
  have hnothing : Delimited [] := by
    rintro _ ⟨⟩
  have hcontent : t.map Node.content = t'.map Node.content :=
    (reads hg t hlegible t' [] [] hlegible' (Or.inr ⟨name, name', hroot, hroot'⟩) hnothing hnothing
      (by rw [h])).1
  exact ⟨hcontent, fun hall hall' ↦
    Tree.map_eq_map_of_all (fun _ _ ↦ Node.setOpen_eq_of_content) t t' hall hall' hcontent⟩

/-- A description of texts that are joined and repeated. -/
def phrases : Json :=
  .arr [entry "join" (some "Text") [("items", "List[Text]")],
    entry "repeat" (some "Text") [("text", "str"), ("times", "int")]]

theorem unique_readability_phrases :
    let g := (ofJson phrases).2
    let item : FormulaTree := .node (.plain (.operator "repeat"))
      [.leaf (.ofAtom .str "\"a, b)]\""), .leaf (.ofAtom .int "2")]
    let whole (node : Node) : FormulaTree := .node node [.node (.plain (.list (.operator "join")))
      [item, item]]
    let t := whole (.plain (.operator "join"))
    let t' := whole (Node.toggle (.plain (.operator "join")))
    g.PlainNames ∧ g.faultIn? t = none ∧ g.faultIn? t' = none ∧ t.All Node.Definite ∧
      t'.All Node.Definite ∧ t ≠ t' ∧
      render t = "join([repeat(\"a, b)]\", 2), repeat(\"a, b)]\", 2)])" ∧ render t = render t' ∧
      t.map Node.content = t'.map Node.content ∧
      (t.All Node.Coherent → t'.All Node.Coherent →
        t.map (·.setOpen true) = t'.map (·.setOpen true)) := by
  intro g item whole t t'
  have hall : g.names.all (fun name ↦ name.toList.all fun c ↦ c ∉ ['(', ')', '[', ']', ',']) =
      true := by decide +kernel
  have hnames : g.PlainNames := by
    intro name hname c hc
    rw [List.all_eq_true] at hall
    exact of_decide_eq_true (List.all_eq_true.mp (hall name hname) c hc)
  have hitem : item.All Node.Definite := by
    refine .node trivial ?_
    simp only [List.forall_mem_cons]
    refine ⟨.node ?_ (by simp), .node ?_ (by simp), by simp⟩
    · change Atom.check .str (Node.ofAtom .str "\"a, b)]\"").input = .ok _
      decide +kernel
    · change Atom.check .int (Node.ofAtom .int "2").input = .ok _
      decide +kernel
  have hdefinite : ∀ node, node.kind = .operator "join" → (whole node).All Node.Definite := by
    intro node hkind
    refine .node (by rw [Node.Definite, hkind]; trivial) ?_
    simp only [List.forall_mem_singleton]
    exact .node trivial (by simp [hitem])
  have ht : g.faultIn? t = none := by decide +kernel
  have ht' : g.faultIn? t' = none := by decide +kernel
  have htext : render t = render t' := by decide +kernel
  exact ⟨hnames, ht, ht', hdefinite _ rfl, hdefinite _ rfl, by decide +kernel, by decide +kernel,
    htext, unique_readability hnames ht ht' rfl rfl (hdefinite _ rfl) (hdefinite _ rfl) htext⟩

end Grammar

end FormulaEdit
