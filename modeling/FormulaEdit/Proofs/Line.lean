import FormulaEdit.Editor.Line
import FormulaEdit.Proofs.Path

/-!
# What a line can say

Every command of a session has a line that says it (`SessionCommand.line`), provided that its text
has no blanks at its ends and its positions fit a machine word (`SessionCommand.Sayable`). Reading
takes the line back to the command, with margins around the line or not. And nothing else is said:
a command that is read from any line at all is of this sort, and its own line says it too.

The rest of a line is trimmed when its first word is taken off, and then cut in the same way. So
what counts is that one step of cutting does not depend on margins (`Line.splitWord_trim`) and that
it finds a word and what follows it, whatever that is (`Line.splitWord_word_append`).
-/

namespace FormulaEdit

open Text

/-! ## Commands and their lines -/

/-- The text of an edit has no blanks at its ends. Only the text of an atom may be empty. -/
def Edit.Sayable : Edit → Prop
  | .selectOperator text | .selectVariant text => trimmed text = text ∧ text ≠ ""
  | .setInput raw => trimmed raw = raw
  | .listAdd | .listRemove | .toggleOpen => True

namespace SessionCommand

def line : SessionCommand → String
  | .undo => "undo"
  | .redo => "redo"
  | .choose name => "choose" ++ " " ++ name
  | .edit ⟨path, .selectOperator name⟩ => "op" ++ " " ++ (NodePath.text path ++ " " ++ name)
  | .edit ⟨path, .selectVariant selector⟩ =>
    "variant" ++ " " ++ (NodePath.text path ++ " " ++ selector)
  | .edit ⟨path, .setInput raw⟩ => "set" ++ " " ++ (NodePath.text path ++ " " ++ raw)
  | .edit ⟨path, .listAdd⟩ => "add" ++ " " ++ NodePath.text path
  | .edit ⟨path, .listRemove⟩ => "rm" ++ " " ++ NodePath.text path
  | .edit ⟨path, .toggleOpen⟩ => "toggle" ++ " " ++ NodePath.text path

def Sayable : SessionCommand → Prop
  | .undo | .redo => True
  | .choose name => trimmed name = name ∧ name ≠ ""
  | .edit ⟨path, change⟩ => (∀ index ∈ path, index < 2 ^ 64) ∧ change.Sayable

end SessionCommand

/-! ## Words -/

/-- A word: it has characters, and none is a blank. -/
def Text.IsWord (word : String) : Prop := word ≠ "" ∧ ∀ c ∈ word.toList, isBlank c = false

instance (word : String) : Decidable (IsWord word) :=
  decidable_of_iff (word ≠ "" ∧ word.toList.all (!isBlank ·) = true) (by simp [IsWord])

theorem NodePath.isWord_text (path : NodePath) : IsWord (text path) :=
  ⟨text_ne_empty path, fun _ hc ↦ isBlank_of_mem_text hc⟩

namespace Line

variable {cs gap rest : List Char} {word : String}

theorem splitWord_of_trim_eq {ds : List Char} (h : trim cs = trim ds) :
    splitWord cs = splitWord ds := by
  rw [splitWord, splitWord, h]

theorem splitWord_trim (cs : List Char) : splitWord (trim cs) = splitWord cs :=
  splitWord_of_trim_eq (trim_trim cs)

theorem splitWord_word (hword : IsWord word) : splitWord word.toList = (word.toList, []) := by
  have htake : word.toList.takeWhile (!isBlank ·) = word.toList :=
    List.takeWhile_eq_self_iff.mpr fun c hc ↦ by rw [hword.2 c hc]; rfl
  have hdrop : word.toList.dropWhile (!isBlank ·) = [] :=
    List.dropWhile_eq_nil_iff.mpr fun c hc ↦ by rw [hword.2 c hc]; rfl
  rw [splitWord, trim_eq_self hword.2, htake, hdrop]
  rfl

theorem splitWord_gap (hword : IsWord word) (hgap : IsMargin (' ' :: gap)) (hrest : Tight rest)
    (hne : rest ≠ []) :
    splitWord (word.toList ++ (' ' :: gap ++ rest)) = (word.toList, rest) := by
  have hends : Tight (word.toList ++ (' ' :: gap ++ rest)) := by
    constructor
    · intro c hc
      rw [List.head?_append_of_ne_nil _ (by simpa using hword.1)] at hc
      exact hword.2 c (List.mem_of_mem_head? hc)
    · intro c hc
      rw [← List.append_assoc, List.getLast?_append_of_ne_nil _ hne] at hc
      exact hrest.last c hc
  have hletters : ∀ c ∈ word.toList, (!isBlank c) = true := fun c hc ↦ by rw [hword.2 c hc]; rfl
  rw [splitWord, trim_of_tight hends, List.takeWhile_append_of_pos hletters,
    List.dropWhile_append_of_pos hletters, List.cons_append,
    List.takeWhile_cons_of_neg (by decide), List.dropWhile_cons_of_neg (by decide),
    List.append_nil, ← List.cons_append, trimStart_margin_append hgap,
    trimStart_eq_self_iff.mpr hrest.head]

/-- **The first word ends at the first blank**, and the rest is trimmed. -/
theorem splitWord_word_append (hword : IsWord word) (rest : List Char) :
    splitWord (word.toList ++ ' ' :: rest) = (word.toList, trim rest) := by
  obtain ⟨before, after, hbefore, hafter, hrest⟩ := exists_margins rest
  have hgap : IsMargin (' ' :: before) := List.forall_mem_cons.mpr ⟨rfl, hbefore⟩
  by_cases hcore : trim rest = []
  · -- nothing but blanks follows the word
    have hblank : IsMargin (' ' :: rest) :=
      List.forall_mem_cons.mpr ⟨rfl, trim_eq_nil_iff.mp hcore⟩
    rw [hcore, ← splitWord_word hword]
    exact splitWord_of_trim_eq (trim_margins isMargin_nil hblank word.toList)
  · rw [← splitWord_gap hword hgap (tight_trim rest) hcore]
    refine splitWord_of_trim_eq ?_
    rw [← trim_margins isMargin_nil hafter (word.toList ++ (' ' :: before ++ trim rest))]
    conv_lhs => rw [hrest]
    simp

theorem tight_splitWord (cs : List Char) : Tight (splitWord cs).2 := by
  set rest := (splitWord cs).2
  have hstart : trimStart rest = rest := List.dropWhile_idempotent isBlank _
  have hsuffix : rest <:+ trim cs :=
    (List.dropWhile_suffix isBlank).trans (List.dropWhile_suffix (!isBlank ·))
  refine ⟨trimStart_eq_self_iff.mp hstart, fun c hc ↦ (tight_trim cs).last c ?_⟩
  obtain ⟨before, hbefore⟩ := hsuffix
  rw [← hbefore, List.getLast?_append, Option.mem_def.mp hc]
  rfl

/-! ## Reading lines -/

theorem read_margins {before after : String} (hbefore : IsMargin before.toList)
    (hafter : IsMargin after.toList) (line : String) :
    read (before ++ line ++ after) = read line := by
  have hsame : splitWord (before ++ line ++ after).toList = splitWord line.toList := by
    refine splitWord_of_trim_eq ?_
    rw [String.toList_append, String.toList_append, trim_margins hbefore hafter]
  rw [read, read, hsame]

theorem read_word_append (hword : IsWord word) (rest : String) :
    read (word ++ " " ++ rest) = ask word (trim rest.toList) := by
  have hline : (word ++ " " ++ rest).toList = word.toList ++ ' ' :: rest.toList := by simp
  rw [read, hline, splitWord_word_append hword]
  exact congrArg (ask · (trim rest.toList)) String.ofList_toList

theorem trim_toList {text : String} (h : trimmed text = text) : trim text.toList = text.toList := by
  simpa [trimmed] using congrArg String.toList h

section Path

variable {path : NodePath} {text : String}

theorem trim_toList_text (path : NodePath) :
    trim (NodePath.text path).toList = (NodePath.text path).toList :=
  trim_eq_self path.isWord_text.2

theorem splitWord_path_text (path : NodePath) (htext : trimmed text = text) :
    splitWord (trim (NodePath.text path ++ " " ++ text).toList) =
      ((NodePath.text path).toList, text.toList) := by
  have hline : (NodePath.text path ++ " " ++ text).toList =
      (NodePath.text path).toList ++ ' ' :: text.toList := by simp
  rw [splitWord_trim, hline, splitWord_word_append path.isWord_text, trim_toList htext]

theorem editAt_text (h : ∀ index ∈ path, index < 2 ^ 64) (edit : Edit) :
    editAt (NodePath.text path).toList edit = .ok (.send (.edit ⟨path, edit⟩)) := by
  have hread : NodePath.read (NodePath.text path) = .ok path :=
    NodePath.read_text fun index hindex ↦ Nat.le_sub_one_of_lt (h index hindex)
  rw [editAt, String.ofList_toList, hread]

theorem editWith_eq (rest : List Char) (make : String → Edit) :
    editWith rest make =
      editAt (splitWord rest).1 (make (String.ofList (splitWord rest).2)) :=
  rfl

theorem editWith_text (h : ∀ index ∈ path, index < 2 ^ 64) (htext : trimmed text = text)
    (make : String → Edit) :
    editWith (trim (NodePath.text path ++ " " ++ text).toList) make =
      .ok (.send (.edit ⟨path, make text⟩)) := by
  rw [editWith_eq, splitWord_path_text path htext, editAt_text h, String.ofList_toList]

theorem editWithText_text (h : ∀ index ∈ path, index < 2 ^ 64) (htext : trimmed text = text)
    (hne : text ≠ "") (usage : String) (make : String → Edit) :
    editWithText (trim (NodePath.text path ++ " " ++ text).toList) usage make =
      .ok (.send (.edit ⟨path, make text⟩)) := by
  rw [editWithText, splitWord_path_text path htext, if_neg (by simpa using hne),
    editWith_text h htext]

end Path

/-- **The line of a command says the command.** -/
theorem read_line {command : SessionCommand} (h : command.Sayable) :
    read command.line = .ok (.send command) := by
  obtain ⟨path, change⟩ | name | _ | _ := command
  · obtain ⟨hpath, hchange⟩ := h
    cases change with
    | selectOperator name =>
      rw [SessionCommand.line, read_word_append (by decide), ask,
        editWithText_text hpath hchange.1 hchange.2]
    | selectVariant selector =>
      rw [SessionCommand.line, read_word_append (by decide), ask,
        editWithText_text hpath hchange.1 hchange.2]
    | setInput raw =>
      rw [SessionCommand.line, read_word_append (by decide), ask, editWith_text hpath hchange]
    | listAdd =>
      rw [SessionCommand.line, read_word_append (by decide), ask, trim_toList_text,
        editAt_text hpath]
    | listRemove =>
      rw [SessionCommand.line, read_word_append (by decide), ask, trim_toList_text,
        editAt_text hpath]
    | toggleOpen =>
      rw [SessionCommand.line, read_word_append (by decide), ask, trim_toList_text,
        editAt_text hpath]
  · obtain ⟨hname, hne⟩ := h
    rw [SessionCommand.line, read_word_append (by decide), ask, trim_toList hname,
      if_neg (by simpa using hne), String.ofList_toList]
  · decide +kernel
  · decide +kernel

/-! ## What is said -/

theorem trimmed_ofList (h : Tight cs) : trimmed (String.ofList cs) = String.ofList cs := by
  rw [trimmed, String.toList_ofList, trim_of_tight h]

variable {command : SessionCommand}

theorem sayable_of_editAt {edit : Edit} (h : editAt cs edit = .ok (.send command))
    (hedit : edit.Sayable) : command.Sayable := by
  rw [editAt] at h
  split at h
  · next path hpath =>
    cases h
    have hle := (NodePath.read_eq_ok_iff.mp hpath).le
    exact ⟨fun index hindex ↦ Nat.lt_of_le_sub_one (by decide) (hle index hindex), hedit⟩
  · cases h

theorem sayable_of_editWithText {usage : String} {make : String → Edit}
    (h : editWithText rest usage make = .ok (.send command))
    (hmake : ∀ text, trimmed text = text → text ≠ "" → (make text).Sayable) :
    command.Sayable := by
  rw [editWithText] at h
  split_ifs at h with hempty
  rw [editWith_eq] at h
  refine sayable_of_editAt h (hmake _ (trimmed_ofList (tight_splitWord rest)) ?_)
  simpa using hempty

theorem sayable_of_ask {word : String} (hrest : Tight rest)
    (h : ask word rest = .ok (.send command)) : command.Sayable := by
  unfold ask at h
  split at h
  -- one case for each word, in the order of the words; the first six send nothing
  iterate 6 · cases h
  · cases h
    trivial
  · cases h
    trivial
  · split_ifs at h with hempty
    cases h
    exact ⟨trimmed_ofList hrest, by simpa using hempty⟩
  · exact sayable_of_editWithText h fun _ htext hne ↦ ⟨htext, hne⟩
  · exact sayable_of_editWithText h fun _ htext hne ↦ ⟨htext, hne⟩
  · exact sayable_of_editAt h (trimmed_ofList (tight_splitWord rest))
  · exact sayable_of_editAt h trivial
  · exact sayable_of_editAt h trivial
  · exact sayable_of_editAt h trivial
  · cases h

end Line

/-- **Lines say every command and nothing else.** The line of a command is read back to it, with
blanks around the line or not. Whatever line a command is read from, the command has a line of its
own. -/
theorem SessionCommand.line_says_exactly :
    (∀ command : SessionCommand, command.Sayable → ∀ before after : String,
        (∀ c ∈ before.toList, isBlank c = true) → (∀ c ∈ after.toList, isBlank c = true) →
          Line.read (before ++ command.line ++ after) = .ok (.send command)) ∧
      ∀ (line : String) (command : SessionCommand), Line.read line = .ok (.send command) →
        command.Sayable ∧ Line.read command.line = .ok (.send command) := by
  constructor
  · intro command h before after hbefore hafter
    rw [Line.read_margins hbefore hafter, Line.read_line h]
  · intro line command h
    have hsayable : command.Sayable := Line.sayable_of_ask (Line.tight_splitWord line.toList) h
    exact ⟨hsayable, Line.read_line hsayable⟩

theorem SessionCommand.line_says_exactly_spaced :
    let command : SessionCommand := .edit ⟨[0, 12], .setInput "\"gas  price\""⟩
    let other : SessionCommand := .edit ⟨[0, 12], .selectOperator "two  words"⟩
    Line.read ("\t " ++ command.line ++ "\u3000") = .ok (.send command) ∧
      Line.read " op  +0.012   two  words " = .ok (.send other) ∧
        other.Sayable ∧ Line.read "op 0.12 two  words" = .ok (.send other) := by
  intro command other
  have htext : trimmed "\"gas  price\"" = "\"gas  price\"" := by decide +kernel
  have hread : Line.read " op  +0.012   two  words " = .ok (.send other) := by decide +kernel
  obtain ⟨hsaid, hagain⟩ := line_says_exactly.2 _ other hread
  have hline : other.line = "op 0.12 two  words" := by decide +kernel
  refine ⟨line_says_exactly.1 command ⟨by simp, htext⟩ "\t " "\u3000" ?_ ?_, hread, hsaid,
    hline ▸ hagain⟩
  · exact List.all_eq_true.mp (by decide)
  · exact List.all_eq_true.mp (by decide)

end FormulaEdit
