import FormulaEdit.Markup.Basic
import FormulaEdit.Proofs.AtomText
import Mathlib.Data.List.Chain
import Mathlib.Data.List.Forall2

/-!
# Highlighted text in canonical form

A document is decoded in one pass: its texts are taken in order, each with the class that it
inherits, and added one by one to a list of runs, where a run may grow across the border of an
element. What is kept of the document is the sequence of its characters, each with a class. The list
of runs is the canonical form of this sequence: no run is empty and neighbours differ in their
class, and there is only one such list for each sequence (`Markup.Canonical.eq_of_letters`).

The class of a character is that of the nearest `span` element around it that has one
(`Html.Nearest`). The decoder passes one class down; here the whole chain of elements around a text
is kept, and the class is found in it afterwards.
-/

namespace FormulaEdit

/-! ## Letters -/

/-- The characters of a run, each with the class of the run. -/
def Span.letters (span : Span) : List (Option String × Char) :=
  span.text.toList.map (span.tokenClass, ·)

theorem Span.letters_ne_nil {span : Span} (h : span.text ≠ "") : span.letters ≠ [] := by
  rwa [letters, ne_eq, List.map_eq_nil_iff, String.toList_eq_nil_iff]

theorem Span.fst_of_mem_letters {span : Span} {letter : Option String × Char}
    (h : letter ∈ span.letters) : letter.1 = span.tokenClass := by
  obtain ⟨c, _, rfl⟩ := List.mem_map.mp h
  rfl

theorem Span.map_snd_letters (span : Span) : span.letters.map Prod.snd = span.text.toList := by
  rw [letters, List.map_map]
  exact List.map_id' _

namespace Markup

def lettersOf (spans : List Span) : List (Option String × Char) := spans.flatMap Span.letters

def letters (markup : Markup) : List (Option String × Char) := lettersOf markup.spans

/-- **What adding a run does.** It is the first, it makes the last run longer, or it is put after a
last run of another class. -/
theorem addRun_cases (run : Span) (spans : List Span) :
    (spans = [] ∧ addRun run spans = [run]) ∨
      ∃ before last, spans = before ++ [last] ∧
        (last.tokenClass = run.tokenClass ∧
            addRun run spans = before ++ [⟨last.tokenClass, last.text ++ run.text⟩] ∨
          last.tokenClass ≠ run.tokenClass ∧ addRun run spans = before ++ [last, run]) := by
  fun_induction addRun run spans with
  | case1 => exact Or.inl ⟨rfl, rfl⟩
  | case2 last hclass => exact Or.inr ⟨[], last, rfl, Or.inl ⟨hclass, rfl⟩⟩
  | case3 last hclass => exact Or.inr ⟨[], last, rfl, Or.inr ⟨hclass, rfl⟩⟩
  | case4 span next spans ih =>
    obtain ⟨hnil, _⟩ | ⟨before, last, hspans, hadd⟩ := ih
    · cases hnil
    · rw [hspans]
      refine Or.inr ⟨span :: before, last, rfl, ?_⟩
      rw [← hspans]
      exact hadd.imp (And.imp_right (congrArg (span :: ·))) (And.imp_right (congrArg (span :: ·)))

theorem lettersOf_addRun (run : Span) (spans : List Span) :
    lettersOf (addRun run spans) = lettersOf spans ++ run.letters := by
  obtain ⟨rfl, hadd⟩ | ⟨before, last, rfl, ⟨hclass, hadd⟩ | ⟨_, hadd⟩⟩ := addRun_cases run spans
  · rw [hadd]
    simp [lettersOf]
  · -- the longer run has the letters of both
    rw [hadd]
    simp [lettersOf, Span.letters, hclass]
  · rw [hadd]
    simp [lettersOf]

theorem letters_push (markup : Markup) (run : Span) :
    (markup.push run).letters = markup.letters ++ run.letters := by
  rw [push]
  split_ifs with hempty
  · have hnone : run.letters = [] := by
      rw [Span.letters, String.isEmpty_iff.mp hempty]
      rfl
    rw [hnone, List.append_nil]
  · exact lettersOf_addRun run markup.spans

/-! ## Canonical form -/

/-- Runs in canonical form. -/
structure Canonical (spans : List Span) : Prop where
  /-- No run is empty. -/
  nonempty : ∀ span ∈ spans, span.text ≠ ""
  /-- Neighbours differ in their class. -/
  distinct : spans.IsChain fun span next ↦ span.tokenClass ≠ next.tokenClass

theorem canonical_nil : Canonical [] := ⟨by simp, .nil⟩

theorem Canonical.tail {span : Span} {spans : List Span} (h : Canonical (span :: spans)) :
    Canonical spans :=
  ⟨fun next hnext ↦ h.nonempty next (List.mem_cons_of_mem _ hnext), h.distinct.tail⟩

theorem Canonical.addRun {spans : List Span} (h : Canonical spans) {run : Span}
    (hrun : run.text ≠ "") : Canonical (addRun run spans) := by
  obtain ⟨rfl, hadd⟩ | ⟨before, last, rfl, ⟨_, hadd⟩ | ⟨hclass, hadd⟩⟩ := addRun_cases run spans
  · rw [hadd]
    exact ⟨by simpa using hrun, .singleton run⟩
  · -- the class of the last run stays, so it still differs from the one before it
    obtain ⟨hbefore, _, hborder⟩ := List.isChain_append.mp h.distinct
    rw [hadd]
    refine ⟨List.forall_mem_append.mpr ⟨(List.forall_mem_append.mp h.nonempty).1, ?_⟩,
      List.isChain_append.mpr ⟨hbefore, .singleton _, by simpa using hborder⟩⟩
    simp [hrun]
  · have hlonger : before ++ [last, run] = before ++ [last] ++ [run] := by simp
    rw [hadd, hlonger]
    exact ⟨List.forall_mem_append.mpr ⟨h.nonempty, by simpa using hrun⟩,
      List.isChain_append.mpr ⟨h.distinct, .singleton run, by simpa using hclass⟩⟩

theorem Canonical.push {markup : Markup} (h : Canonical markup.spans) (run : Span) :
    Canonical (markup.push run).spans := by
  rw [Markup.push]
  split_ifs with hempty
  · exact h
  · exact h.addRun fun hrun ↦ hempty (String.isEmpty_iff.mpr hrun)

/-- **Texts added one by one** give runs in canonical form that have the letters of the texts. -/
theorem foldl_push (runs : List Span) {markup : Markup} (h : Canonical markup.spans) :
    Canonical (runs.foldl push markup).spans ∧
      (runs.foldl push markup).letters = markup.letters ++ lettersOf runs := by
  induction runs generalizing markup with
  | nil => exact ⟨h, (List.append_nil _).symm⟩
  | cons run runs ih =>
    obtain ⟨hcanonical, hletters⟩ := ih (h.push run)
    refine ⟨hcanonical, ?_⟩
    rw [List.foldl_cons, hletters, letters_push, List.append_assoc]
    rfl

theorem canonical_ofRuns (runs : List Span) : Canonical (ofRuns runs).spans :=
  (foldl_push runs canonical_nil).1

theorem letters_ofRuns (runs : List Span) : (ofRuns runs).letters = lettersOf runs :=
  (foldl_push runs canonical_nil).2

theorem Canonical.head?_lettersOf {span : Span} {spans : List Span}
    (h : Canonical (span :: spans)) :
    (lettersOf (span :: spans)).head?.map Prod.fst = some span.tokenClass := by
  obtain ⟨letter, rest, hletters⟩ := List.exists_cons_of_ne_nil
    (Span.letters_ne_nil (h.nonempty span List.mem_cons_self))
  rw [lettersOf, List.flatMap_cons, hletters, List.cons_append, List.head?_cons, Option.map_some,
    Span.fst_of_mem_letters (hletters ▸ List.mem_cons_self)]

theorem Canonical.fst_ne_of_head? {span : Span} {spans : List Span}
    (h : Canonical (span :: spans)) :
    ∀ letter ∈ (lettersOf spans).head?, letter.1 ≠ span.tokenClass := by
  cases spans with
  | nil => simp [lettersOf]
  | cons next spans =>
    intro letter hletter
    have hnext := h.tail.head?_lettersOf
    rw [Option.mem_def.mp hletter, Option.map_some] at hnext
    rw [Option.some.inj hnext]
    exact (List.isChain_cons_cons.mp h.distinct).1.symm

theorem Canonical.eq_nil_of_letters {spans : List Span} (h : Canonical spans)
    (hletters : lettersOf spans = []) : spans = [] := by
  cases spans with
  | nil => rfl
  | cons span spans =>
    have hfirst := h.head?_lettersOf
    rw [hletters] at hfirst
    cases hfirst

/-- **Runs in canonical form are determined by their letters.** -/
theorem Canonical.eq_of_letters {spans others : List Span} (h : Canonical spans)
    (hothers : Canonical others) (hletters : lettersOf spans = lettersOf others) :
    spans = others := by
  induction spans generalizing others with
  | nil => exact (hothers.eq_nil_of_letters hletters.symm).symm
  | cons span spans ih =>
    cases others with
    | nil => exact h.eq_nil_of_letters hletters
    | cons other others =>
      have hsplit : span.letters ++ lettersOf spans = other.letters ++ lettersOf others := hletters
      have hclass : span.tokenClass = other.tokenClass := by
        have hfirst := h.head?_lettersOf
        rw [hletters, hothers.head?_lettersOf] at hfirst
        exact (Option.some.inj hfirst).symm
      -- a run ends where the class changes
      have hends := append_inj_of_free (p := fun letter ↦ letter.1 != span.tokenClass)
        (fun letter hletter ↦ by simp [Span.fst_of_mem_letters hletter])
        (fun letter hletter ↦ by simp [Span.fst_of_mem_letters hletter, hclass])
        (fun letter hletter ↦ by simpa using h.fst_ne_of_head? letter hletter)
        (fun letter hletter ↦ by simpa [hclass] using hothers.fst_ne_of_head? letter hletter) hsplit
      have htext : span.text = other.text := by
        rw [← String.toList_inj, ← span.map_snd_letters, ← other.map_snd_letters, hends.1]
      have hspan : span = other := by
        obtain ⟨_, _⟩ := span
        obtain ⟨_, _⟩ := other
        exact congrArg₂ Span.mk hclass htext
      rw [hspan, ih h.tail hothers.tail hends.2]

end Markup

/-! ## The texts of a document -/

namespace Html

/-- What an element says of itself. -/
structure Element where
  /-- What it is called. -/
  name : String
  /-- Its attributes in order. -/
  attrs : List (String × String)

mutual

/-- The texts of a document in order, each with the elements around it, the innermost first. -/
def Node.textsIn (around : List Element) : Node → List (List Element × String)
  | .document children => textsInAll around children
  | .element name attrs children => textsInAll (⟨name, attrs⟩ :: around) children
  | .text content => [(around, content)]
  | .comment _ => []
  | .other => []

def textsInAll (around : List Element) : List Node → List (List Element × String)
  | [] => []
  | node :: rest => node.textsIn around ++ textsInAll around rest

end

/-- The characters of a document in order, each with the elements around it. -/
def Node.letters (document : Node) : List (List Element × Char) :=
  (document.textsIn []).flatMap fun text ↦ text.2.toList.map (text.1, ·)

theorem Node.map_snd_letters (document : Node) :
    document.letters.map Prod.snd =
      (String.join ((document.textsIn []).map Prod.snd)).toList := by
  rw [letters, String.toList_join, List.map_flatMap, List.flatMap_map]
  simp only [List.map_map, Function.comp_def, List.map_id']

/-- An element gives a class to what is in it: it is a `span`, and the class is what its class
attribute says, without blanks at the ends and if anything is left. -/
def Element.Gives (element : Element) (tokenClass : String) : Prop :=
  element.name = "span" ∧ tokenClass ≠ "" ∧
    ∃ value, element.attrs.lookup "class" = some value ∧ Text.trimmed value = tokenClass

/-- The class that is nearest in a chain of elements, if any of them gives one. -/
inductive Nearest : List Element → Option String → Prop
  | nowhere : Nearest [] none
  | here {element : Element} {tokenClass : String} (gives : element.Gives tokenClass)
      (around : List Element) : Nearest (element :: around) (some tokenClass)
  | further {element : Element} {around : List Element} {tokenClass : Option String}
      (gives_none : ∀ tokenClass, ¬element.Gives tokenClass) (nearest : Nearest around tokenClass) :
      Nearest (element :: around) tokenClass

theorem classOf_eq_some_iff {element : Element} {tokenClass : String} :
    classOf element.name element.attrs = some tokenClass ↔ element.Gives tokenClass := by
  rw [classOf, Element.Gives]
  split_ifs with hname
  · simp only [Option.filter_eq_some_iff, Option.map_eq_some_iff]
    constructor
    · rintro ⟨hvalue, hne⟩
      exact ⟨hname, by simpa using hne, hvalue⟩
    · rintro ⟨_, hne, hvalue⟩
      exact ⟨hvalue, by simpa using hne⟩
  · simp [hname]

theorem Nearest.cons {around : List Element} {inherited : Option String}
    (h : Nearest around inherited) (element : Element) :
    Nearest (element :: around) ((classOf element.name element.attrs).or inherited) := by
  cases hclass : classOf element.name element.attrs with
  | some tokenClass => exact .here (classOf_eq_some_iff.mp hclass) around
  | none =>
    refine .further (fun tokenClass hgives ↦ ?_) h
    rw [classOf_eq_some_iff.mpr hgives] at hclass
    cases hclass

/-- A text of a document and the run that is made of it. -/
def Decoded (text : List Element × String) (run : Span) : Prop :=
  run.text = text.2 ∧ Nearest text.1 run.tokenClass

mutual

theorem decoded_runs {around : List Element} {inherited : Option String}
    (h : Nearest around inherited) :
    (node : Node) → List.Forall₂ Decoded (node.textsIn around) (node.runs inherited)
  | .document children => decoded_runsOfAll h children
  | .element name attrs children => decoded_runsOfAll (h.cons ⟨name, attrs⟩) children
  | .text _ => .cons ⟨rfl, h⟩ .nil
  | .comment _ => .nil
  | .other => .nil

theorem decoded_runsOfAll {around : List Element} {inherited : Option String}
    (h : Nearest around inherited) :
    (nodes : List Node) → List.Forall₂ Decoded (textsInAll around nodes) (runsOfAll inherited nodes)
  | [] => .nil
  | node :: rest => List.rel_append (decoded_runs h node) (decoded_runsOfAll h rest)

end

end Html

namespace Markup

theorem letters_ofDocument (document : Html.Node) :
    List.Forall₂ (fun letter classed ↦ classed.2 = letter.2 ∧ Html.Nearest letter.1 classed.1)
      document.letters (ofDocument document).letters := by
  have hruns : List.Forall₂ Html.Decoded (document.textsIn []) (document.runs none) :=
    Html.decoded_runs .nowhere document
  rw [ofDocument, letters_ofRuns]
  refine List.rel_flatMap hruns fun text run hdecoded ↦ ?_
  rw [Span.letters, hdecoded.1, List.forall₂_map_left_iff, List.forall₂_map_right_iff,
    List.forall₂_same]
  exact fun c _ ↦ ⟨rfl, hdecoded.2⟩

theorem toList_text (markup : Markup) : markup.text.toList = markup.letters.map Prod.snd := by
  rw [text, String.toList_join, letters, lettersOf, List.map_flatMap, List.flatMap_map]
  simp only [Span.map_snd_letters]

/-- **Decoded markup is canonical and loses no text.** The text of the runs is that of the document.
No run is empty and neighbours differ in their class. The characters are those of the document, each
with the class of the nearest `span` around it that has one. There is only one list of runs of this
form with these characters and classes. -/
theorem ofDocument_canonical (document : Html.Node) :
    let markup := ofDocument document
    markup.text = String.join ((document.textsIn []).map Prod.snd) ∧
      Canonical markup.spans ∧
      List.Forall₂ (fun letter classed ↦ classed.2 = letter.2 ∧ Html.Nearest letter.1 classed.1)
        document.letters markup.letters ∧
      ∀ other : Markup, Canonical other.spans → other.letters = markup.letters →
        other = markup := by
  intro markup
  have hcanonical : Canonical markup.spans := canonical_ofRuns _
  have hletters := letters_ofDocument document
  refine ⟨?_, hcanonical, hletters, fun other hother hsame ↦ ?_⟩
  · have hchars : document.letters.map Prod.snd = markup.letters.map Prod.snd := by
      rw [← List.forall₂_eq_eq_eq, List.forall₂_map_left_iff, List.forall₂_map_right_iff]
      exact hletters.imp fun letter classed h ↦ h.1.symm
    rw [← String.toList_inj, toList_text, ← hchars, Html.Node.map_snd_letters]
  · obtain ⟨spans⟩ := other
    exact congrArg Markup.mk (hother.eq_of_letters hcanonical hsame)

/-- Classes with blanks around them, a blank class, classes of other elements, an empty text and a
comment between texts. -/
theorem ofDocument_canonical_nested :
    let inner : List Html.Node := [.text "b", .comment "no",
      .element "span" [("class", " ")] [.text "", .text "c"],
      .element "em" [("class", "n")] [.text "d"]]
    let document : Html.Node := .document [.element "pre" [("class", "p")] [.text "a",
      .element "span" [("id", "x"), ("class", " k ")] inner,
      .element "span" [("class", "k")] [.text "e"]]]
    let spans : List Span := [⟨none, "a"⟩, ⟨some "k", "bcde"⟩]
    Canonical spans ∧ (⟨spans⟩ : Markup).letters = (ofDocument document).letters ∧
      ⟨spans⟩ = ofDocument document ∧ (ofDocument document).text = "abcde" := by
  intro inner document spans
  have hspans : Canonical spans := ⟨by decide, by decide⟩
  have hletters : (⟨spans⟩ : Markup).letters = (ofDocument document).letters := by decide +kernel
  obtain ⟨htext, _, _, hunique⟩ := ofDocument_canonical document
  exact ⟨hspans, hletters, hunique ⟨spans⟩ hspans hletters, htext.trans (by decide +kernel)⟩

end Markup

end FormulaEdit
