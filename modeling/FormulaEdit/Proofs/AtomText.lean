import FormulaEdit.Atom.Basic
import Mathlib.Data.List.TakeWhile

/-!
# Where the text of an atom ends

In the text of a formula an atom is followed by a comma, a closing bracket or nothing. The text of
an atom can be told from what follows it, because a valid text of any type but a string contains
none of these marks, and a string ends with the first quote that no backslash takes.

That a mark is in no number and no timestamp is shown of the readers, part by part: whatever a
reader takes off its input, the marks of the input are still there afterwards (`Spares`). A reader
that takes a whole text has therefore read one without marks.
-/

namespace FormulaEdit

/-- The characters that end an argument of an operator or an item of a list. -/
def isMark (c : Char) : Bool := c = ',' || c = ')' || c = ']'

theorem isMark_iff {c : Char} : isMark c = true ↔ c = ',' ∨ c = ')' ∨ c = ']' := by
  simp [isMark, or_assoc]

/-- A text that is empty or starts with a mark. -/
def Delimited (cs : List Char) : Prop := ∀ c ∈ cs.head?, isMark c = true

theorem isDigit_of_isMark {c : Char} (h : isMark c = true) : c.isDigit = false := by
  rcases isMark_iff.mp h with rfl | rfl | rfl <;> rfl

theorem isBlank_of_isMark {c : Char} (h : isMark c = true) : Text.isBlank c = false := by
  rcases isMark_iff.mp h with rfl | rfl | rfl <;> rfl

theorem append_inj_of_free {α : Type} {p : α → Bool} {xs ys rest rest' : List α}
    (hxs : ∀ c ∈ xs, p c = false) (hys : ∀ c ∈ ys, p c = false)
    (hrest : ∀ c ∈ rest.head?, p c = true) (hrest' : ∀ c ∈ rest'.head?, p c = true)
    (h : xs ++ rest = ys ++ rest') :
    xs = ys ∧ rest = rest' := by
  have hfirst : ∀ {zs tail : List α}, (∀ c ∈ zs, p c = false) → (∀ c ∈ tail.head?, p c = true) →
      (zs ++ tail).takeWhile (fun c ↦ !p c) = zs := by
    intro zs tail hzs htail
    rw [List.takeWhile_append_of_pos fun c hc ↦ by rw [hzs c hc]; rfl]
    cases tail with
    | nil => rw [List.takeWhile_nil, List.append_nil]
    | cons c tail =>
      have hc : p c = true := htail c rfl
      rw [List.takeWhile_cons_of_neg (by simp [hc]), List.append_nil]
  have hsame : xs = ys := by
    rw [← hfirst hxs hrest, h, hfirst hys hrest']
  rw [hsame] at h
  exact ⟨hsame, List.append_cancel_left h⟩

theorem toList_intercalate_cons (sep piece : String) (pieces : List String) :
    (sep.intercalate (piece :: pieces)).toList =
      piece.toList ++ pieces.flatMap fun next ↦ sep.toList ++ next.toList := by
  rw [String.toList_intercalate]
  induction pieces generalizing piece with
  | nil => simp
  | cons next pieces ih =>
    rw [List.map_cons, List.map_cons, List.intercalate_cons_cons, ← List.map_cons, ih,
      List.flatMap_cons, List.append_assoc, List.append_assoc]

/-! ## Numbers -/

theorem mem_dropWhile_of_mem {p : Char → Bool} {c : Char} {cs : List Char} (h : c ∈ cs)
    (hc : p c = false) : c ∈ cs.dropWhile p := by
  rw [← List.takeWhile_append_dropWhile (p := p) (l := cs), List.mem_append] at h
  refine h.resolve_left fun htaken ↦ ?_
  rw [List.mem_takeWhile_imp htaken] at hc
  cases hc

namespace Number

variable {c : Char} {cs : List Char}

theorem isMark_of_readDigits? (h : (readDigits? cs).isSome = true) (hc : c ∈ cs) :
    isMark c = false := by
  rw [readDigits?] at h
  split_ifs at h with hdigits
  · rw [Bool.and_eq_true, List.all_eq_true] at hdigits
    by_contra hmark
    rw [Bool.not_eq_false] at hmark
    have hdigit := hdigits.2 c hc
    rw [isDigit_of_isMark hmark] at hdigit
    cases hdigit
  · cases h

theorem mem_readSign (hc : c ∈ cs) (hmark : isMark c = true) : c ∈ (readSign cs).2 := by
  rw [readSign.eq_def]
  split
  · refine (List.mem_cons.mp hc).resolve_left ?_
    rintro rfl
    cases hmark
  · refine (List.mem_cons.mp hc).resolve_left ?_
    rintro rfl
    cases hmark
  · exact hc

theorem isMark_of_readNat? {limit : Nat} (h : (readNat? limit cs).isSome = true) (hc : c ∈ cs) :
    isMark c = false := by
  rw [readNat?.eq_def] at h
  have hdigits := Option.isSome_of_isSome_filter _ _ h
  split at hdigits
  · rcases List.mem_cons.mp hc with rfl | hc
    · rfl
    · exact isMark_of_readDigits? hdigits hc
  · exact isMark_of_readDigits? hdigits hc

theorem isMark_of_readInt? (h : (readInt? cs).isSome = true) (hc : c ∈ cs) : isMark c = false := by
  rw [readInt?.eq_def] at h
  split at h
  · rw [Option.isSome_map] at h
    rcases List.mem_cons.mp hc with rfl | hc
    · rfl
    · have hread := Option.isSome_of_isSome_bind h
      exact isMark_of_readDigits? (Option.isSome_of_isSome_filter _ _ hread) hc
  · rw [Option.isSome_map] at h
    exact isMark_of_readNat? (Option.isSome_of_isSome_bind h) hc

theorem isMark_of_readExponent? (h : (readExponent? cs).isSome = true) (hc : c ∈ cs) :
    isMark c = false := by
  cases cs with
  | nil => cases hc
  | cons first rest =>
    rw [readExponent?] at h
    split_ifs at h with hfirst
    · rw [Option.isSome_map] at h
      rcases List.mem_cons.mp hc with rfl | hc
      · rw [Bool.or_eq_true, decide_eq_true_eq, decide_eq_true_eq] at hfirst
        rcases hfirst with rfl | rfl <;> rfl
      · by_contra hmark
        rw [Bool.not_eq_false] at hmark
        have hdigits := Option.isSome_of_isSome_bind h
        rw [isMark_of_readDigits? hdigits (mem_readSign hc hmark)] at hmark
        cases hmark
    · cases h

theorem exists_readExponent? {d : Decimal} (h : Decimal.read? cs = some d) :
    ∃ rest, (readExponent? rest).isSome = true ∧
      ((readSign cs).2.dropWhile Char.isDigit = rest ∨
        ∃ tail, (readSign cs).2.dropWhile Char.isDigit = '.' :: tail ∧
          tail.dropWhile Char.isDigit = rest) := by
  rw [Decimal.read?] at h
  dsimp only at h
  split at h
  · next tail hpoint =>
    split_ifs at h
    obtain ⟨exponent, hexponent, _⟩ := Option.map_eq_some_iff.mp h
    exact ⟨_, Option.isSome_of_eq_some hexponent, Or.inr ⟨tail, hpoint, rfl⟩⟩
  · split_ifs at h
    obtain ⟨exponent, hexponent, _⟩ := Option.map_eq_some_iff.mp h
    exact ⟨_, Option.isSome_of_eq_some hexponent, Or.inl rfl⟩

theorem isMark_of_isFiniteNumeral (h : isFiniteNumeral cs = true) (hc : c ∈ cs) :
    isMark c = false := by
  rw [isFiniteNumeral] at h
  split at h
  · next d hread =>
    by_contra hmark
    rw [Bool.not_eq_false] at hmark
    have hdigit := isDigit_of_isMark hmark
    have hmem : c ∈ (readSign cs).2.dropWhile Char.isDigit :=
      mem_dropWhile_of_mem (mem_readSign hc hmark) hdigit
    obtain ⟨rest, hexponent, rfl | ⟨tail, hpoint, rfl⟩⟩ := exists_readExponent? hread
    · rw [isMark_of_readExponent? hexponent hmem] at hmark
      cases hmark
    · rw [hpoint] at hmem
      rcases List.mem_cons.mp hmem with rfl | hmem
      · cases hmark
      · rw [isMark_of_readExponent? hexponent (mem_dropWhile_of_mem hmem hdigit)] at hmark
        cases hmark
  · cases h

end Number

/-! ## Timestamps -/

namespace Timestamp

open Text

variable {α β : Type} {cs : List Char}

/-- A reader that takes no mark off its input. -/
def Spares (r : Reader α) (cs : List Char) : Prop :=
  ∀ a rest, r.run cs = some (a, rest) → ∀ c ∈ cs, isMark c = true → c ∈ rest

theorem spares_pure (a : α) : Spares (pure a) cs := by
  rintro _ _ ⟨⟩ c hc _
  exact hc

theorem spares_failure : Spares (failure : Reader α) cs := by
  rintro _ _ ⟨⟩

theorem spares_failure_bind {f : α → Reader β} : Spares (failure >>= f) cs := by
  rintro _ _ ⟨⟩

theorem Spares.bind {r : Reader α} {f : α → Reader β} (h : Spares r cs)
    (hf : ∀ a rest, Spares (f a) rest) : Spares (r >>= f) cs := by
  intro b rest hrun c hc hmark
  rw [StateT.run_bind] at hrun
  obtain ⟨⟨a, mid⟩, hmid, hrest⟩ := Option.bind_eq_some_iff.mp hrun
  exact hf a mid b rest hrest c (h a mid hmid c hc hmark) hmark

theorem spares_get_bind {f : List Char → Reader α} (h : Spares (f cs) cs) :
    Spares (get >>= f) cs :=
  h

theorem spares_set {rest : List Char} (h : ∀ c ∈ cs, isMark c = true → c ∈ rest) :
    Spares (set rest : Reader PUnit) cs := by
  rintro _ _ ⟨⟩
  exact h

theorem spares_set_tail {first : Char} {rest : List Char} (h : isMark first = false) :
    Spares (set rest : Reader PUnit) (first :: rest) := by
  refine spares_set fun c hc hmark ↦ (List.mem_cons.mp hc).resolve_left ?_
  rintro rfl
  rw [h] at hmark
  cases hmark

theorem spares_trimStart : Spares (modify trimStart : Reader PUnit) cs := by
  rintro _ _ ⟨⟩ c hc hmark
  exact mem_dropWhile_of_mem hc (isBlank_of_isMark hmark)

theorem spares_char {mark : Char} (h : isMark mark = false) : Spares (char mark) cs := by
  refine spares_get_bind ?_
  cases cs with
  | nil => exact spares_failure
  | cons first rest =>
    dsimp only
    split_ifs with hfirst
    · exact spares_set_tail (hfirst ▸ h)
    · exact spares_failure

theorem spares_number (least most : Nat) : Spares (number least most) cs := by
  refine spares_get_bind ?_
  dsimp only
  generalize hdigits : (cs.take most).takeWhile Char.isDigit = digits
  split_ifs
  · exact spares_failure_bind
  · refine Spares.bind (spares_set fun c hc hmark ↦ ?_) fun _ _ ↦ spares_pure _
    have htaken : digits <+: cs :=
      hdigits ▸ (List.takeWhile_prefix _).trans (List.take_prefix _ _)
    rw [← List.take_append_drop digits.length cs, ← List.prefix_iff_eq_take.mp htaken,
      List.mem_append] at hc
    refine hc.resolve_left fun hdigit ↦ ?_
    rw [← hdigits] at hdigit
    have hisDigit := List.mem_takeWhile_imp hdigit
    rw [isDigit_of_isMark hmark] at hisDigit
    cases hisDigit

theorem spares_loose (most : Nat) : Spares (loose most) cs :=
  spares_trimStart.bind fun _ _ ↦ spares_number 1 most

theorem spares_year : Spares year cs := by
  refine spares_trimStart.bind fun _ rest ↦ spares_get_bind ?_
  split
  · exact (spares_set_tail rfl).bind fun _ _ ↦ (spares_number _ _).bind fun _ _ ↦ spares_pure _
  · exact (spares_set_tail rfl).bind fun _ _ ↦ (spares_number _ _).bind fun _ _ ↦ spares_pure _
  · exact (spares_number _ _).bind fun _ _ ↦ spares_pure _

theorem spares_day : Spares day cs := by
  refine spares_year.bind fun _ _ ↦ ?_
  refine (spares_char rfl).bind fun _ _ ↦ (spares_loose 2).bind fun _ _ ↦ ?_
  refine (spares_char rfl).bind fun _ _ ↦ (spares_loose 2).bind fun _ _ ↦ ?_
  dsimp only
  split_ifs
  · exact spares_pure _
  · exact spares_failure

theorem spares_guardTime (hour minute second : Nat) :
    Spares (guardTime hour minute second) cs := by
  rw [guardTime]
  split_ifs
  · exact spares_pure _
  · exact spares_failure

theorem spares_localTime : Spares localTime cs := by
  refine spares_day.bind fun _ _ ↦ (spares_char rfl).bind fun _ _ ↦ ?_
  refine (spares_loose 2).bind fun _ _ ↦ (spares_char rfl).bind fun _ _ ↦ ?_
  refine (spares_loose 2).bind fun _ _ ↦ (spares_char rfl).bind fun _ _ ↦ ?_
  exact (spares_loose 2).bind fun _ _ ↦ spares_guardTime _ _ _

theorem spares_divider : Spares divider cs := by
  refine spares_get_bind ?_
  cases cs with
  | nil => exact spares_failure
  | cons first rest =>
    dsimp only
    split_ifs with hfirst
    · refine spares_set_tail ?_
      simp only [Bool.or_eq_true, decide_eq_true_eq] at hfirst
      rcases hfirst with (rfl | rfl) | rfl <;> rfl
    · exact spares_failure

theorem spares_fraction : Spares fraction cs := by
  refine spares_get_bind ?_
  split
  · exact (spares_set_tail rfl).bind fun _ _ ↦ (spares_number _ _).bind fun _ _ ↦ spares_pure _
  · exact spares_pure _

theorem spares_offset : Spares offset cs := by
  refine spares_get_bind ?_
  cases cs with
  | nil => exact spares_failure
  | cons first rest =>
    dsimp only
    by_cases hmark : isMark first = true
    · -- a mark is neither a letter nor a sign, so there is no offset
      rcases isMark_iff.mp hmark with rfl | rfl | rfl <;> rintro _ _ ⟨⟩
    · refine (spares_set_tail (Bool.not_eq_true _ ▸ hmark)).bind fun _ _ ↦ ?_
      split_ifs
      · exact spares_pure _
      · refine (spares_number 2 2).bind fun _ _ ↦ (spares_char rfl).bind fun _ _ ↦ ?_
        refine (spares_number 2 2).bind fun _ _ ↦ ?_
        split_ifs
        · exact spares_pure _
        · exact spares_failure
      · exact spares_failure

theorem spares_internetTime : Spares internetTime cs := by
  refine (spares_number 4 4).bind fun _ _ ↦ (spares_char rfl).bind fun _ _ ↦ ?_
  refine (spares_number 2 2).bind fun _ _ ↦ (spares_char rfl).bind fun _ _ ↦ ?_
  refine (spares_number 2 2).bind fun _ _ ↦ ?_
  dsimp only
  split_ifs
  · exact spares_failure_bind
  · refine spares_divider.bind fun _ _ ↦ ?_
    refine (spares_number 2 2).bind fun _ _ ↦ (spares_char rfl).bind fun _ _ ↦ ?_
    refine (spares_number 2 2).bind fun _ _ ↦ (spares_char rfl).bind fun _ _ ↦ ?_
    refine (spares_number 2 2).bind fun _ _ ↦ (spares_guardTime _ _ _).bind fun _ _ ↦ ?_
    exact spares_fraction.bind fun _ _ ↦ spares_offset

theorem isMark_of_recognises {r : Reader α} (hr : Spares r cs) (h : recognises r cs = true)
    {c : Char} (hc : c ∈ cs) : isMark c = false := by
  rw [recognises] at h
  split at h
  · next a hrun =>
    by_contra hmark
    rw [Bool.not_eq_false] at hmark
    exact absurd (hr a [] hrun c hc hmark) List.not_mem_nil
  · cases h

theorem isMark_of_isTimestamp (h : isTimestamp cs = true) {c : Char} (hc : c ∈ cs) :
    isMark c = false := by
  rw [isTimestamp, Bool.or_eq_true, Bool.or_eq_true] at h
  rcases h with (h | h) | h
  · exact isMark_of_recognises spares_day h hc
  · exact isMark_of_recognises spares_localTime h hc
  · exact isMark_of_recognises spares_internetTime h hc

end Timestamp

/-! ## Literals -/

namespace Literal

theorem closes_quote_iff {cs : List Char} : closes ('"' :: cs) = true ↔ cs = [] := by
  cases cs with
  | nil => simp [closes]
  | cons c cs => simp [closes]

theorem closes_backslash_iff {cs : List Char} :
    closes ('\\' :: cs) = true ↔ ∃ c rest, cs = c :: rest ∧ closes rest = true := by
  cases cs with
  | nil => simp [closes]
  | cons c cs =>
    constructor
    · exact fun h ↦ ⟨c, cs, rfl, h⟩
    · rintro ⟨_, _, ⟨⟩, h⟩
      exact h

theorem closes_cons {c : Char} {cs : List Char} (hquote : c ≠ '"') (hbackslash : c ≠ '\\') :
    closes (c :: cs) = closes cs := by
  rw [closes.eq_def]
  split <;> simp_all

/-- **Induction over a text unit by unit**, up to the first quote that no backslash takes. -/
@[elab_as_elim]
theorem unit_induction {motive : List Char → Prop} (nil : motive [])
    (quote : ∀ cs, motive ('"' :: cs)) (backslash : motive ['\\'])
    (escape : ∀ c cs, motive cs → motive ('\\' :: c :: cs))
    (plain : ∀ c cs, c ≠ '"' → c ≠ '\\' → motive cs → motive (c :: cs)) :
    ∀ cs, motive cs
  | [] => nil
  | c :: cs => by
    by_cases hquote : c = '"'
    · exact hquote ▸ quote cs
    by_cases hbackslash : c = '\\'
    · subst hbackslash
      obtain _ | ⟨d, cs⟩ := cs
      · exact backslash
      · exact escape d cs (unit_induction nil quote backslash escape plain cs)
    · exact plain c cs hquote hbackslash (unit_induction nil quote backslash escape plain cs)

/-- **A literal ends where it ends**, whatever follows. -/
theorem closes_append_inj {xs ys rest rest' : List Char} (hxs : closes xs = true)
    (hys : closes ys = true) (h : xs ++ rest = ys ++ rest') : xs = ys ∧ rest = rest' := by
  -- one unit after another is taken off both texts
  induction xs using unit_induction generalizing ys with
  | nil => cases hxs
  | quote xs =>
    obtain rfl := closes_quote_iff.mp hxs
    obtain _ | ⟨c, ys⟩ := ys
    · cases hys
    obtain ⟨rfl, hrest⟩ := List.cons.inj h
    obtain rfl := closes_quote_iff.mp hys
    exact ⟨rfl, hrest⟩
  | backslash => cases hxs
  | escape c xs ih =>
    obtain _ | ⟨d, ys⟩ := ys
    · cases hys
    obtain ⟨rfl, htails⟩ := List.cons.inj h
    obtain ⟨d, ys, rfl, hclosed⟩ := closes_backslash_iff.mp hys
    obtain ⟨rfl, hunits⟩ := List.cons.inj htails
    obtain ⟨rfl, hrest⟩ := ih hxs hclosed hunits
    exact ⟨rfl, hrest⟩
  | plain c xs hquote hbackslash ih =>
    obtain _ | ⟨d, ys⟩ := ys
    · cases hys
    obtain ⟨rfl, htails⟩ := List.cons.inj h
    rw [closes_cons hquote hbackslash] at hxs hys
    obtain ⟨rfl, hrest⟩ := ih hxs hys htails
    exact ⟨rfl, hrest⟩

theorem isLiteral_iff {cs : List Char} :
    isLiteral cs = true ↔ ∃ rest, cs = '"' :: rest ∧ closes rest = true := by
  rw [isLiteral.eq_def]
  split
  · simp
  · next hquote =>
    constructor
    · intro h
      cases h
    · rintro ⟨rest, rfl, _⟩
      exact absurd rfl (hquote rest)

end Literal

/-! ## Atoms -/

namespace Atom

variable {type : Atom} {s s' : String}

/-- A valid text of a type other than that of strings is not empty and has no mark. -/
theorem isMark_of_check (htype : type ≠ .str) (h : type.check s = .ok s) :
    s.toList ≠ [] ∧ ∀ c ∈ s.toList, isMark c = false := by
  cases type with
  | str => exact absurd rfl htype
  | number =>
    simp only [check] at h
    split_ifs at h with hnumber
    rw [Except.ok.inj h] at hnumber
    refine ⟨?_, fun c hc ↦ Number.isMark_of_isFiniteNumeral hnumber hc⟩
    intro hnil
    rw [hnil] at hnumber
    cases hnumber
  | int =>
    simp only [check] at h
    split_ifs at h with hint
    rw [Except.ok.inj h] at hint
    refine ⟨?_, fun c hc ↦ Number.isMark_of_readInt? hint hc⟩
    intro hnil
    rw [hnil] at hint
    cases hint
  | bool =>
    simp only [check] at h
    split_ifs at h with hbool
    rw [Except.ok.inj h, Bool.or_eq_true, decide_eq_true_eq, decide_eq_true_eq] at hbool
    rcases hbool with rfl | rfl
    · have hchars : "true".toList = ['t', 'r', 'u', 'e'] := rfl
      simp [hchars, isMark]
    · have hchars : "false".toList = ['f', 'a', 'l', 's', 'e'] := rfl
      simp [hchars, isMark]
  | timestamp =>
    simp only [check] at h
    split_ifs at h with hempty htimestamp
    rw [Except.ok.inj h] at hempty htimestamp
    refine ⟨?_, fun c hc ↦ Timestamp.isMark_of_isTimestamp htimestamp hc⟩
    rw [String.isEmpty_iff] at hempty
    rwa [ne_eq, String.toList_eq_nil_iff]

theorem isLiteral_of_check (h : str.check s = .ok s) : Literal.isLiteral s.toList = true := by
  simp only [check] at h
  split_ifs at h with hliteral
  exact hliteral

theorem exists_head_of_check (h : type.check s = .ok s) :
    ∃ c cs, s.toList = c :: cs ∧ isMark c = false := by
  by_cases htype : type = .str
  · subst htype
    obtain ⟨rest, hrest, _⟩ := Literal.isLiteral_iff.mp (isLiteral_of_check h)
    exact ⟨'"', rest, hrest, rfl⟩
  · obtain ⟨hne, hmark⟩ := isMark_of_check htype h
    obtain ⟨c, cs, hcons⟩ := List.exists_cons_of_ne_nil hne
    exact ⟨c, cs, hcons, hmark c (hcons ▸ List.mem_cons_self)⟩

/-- **Valid texts of one type can be told from what follows them.** -/
theorem append_inj_of_check (h : type.check s = .ok s) (h' : type.check s' = .ok s')
    {rest rest' : List Char} (hrest : Delimited rest) (hrest' : Delimited rest')
    (heq : s.toList ++ rest = s'.toList ++ rest') : s = s' ∧ rest = rest' := by
  have hsame : s.toList = s'.toList ∧ rest = rest' := by
    by_cases htype : type = .str
    · subst htype
      obtain ⟨cs, hcs, hcloses⟩ := Literal.isLiteral_iff.mp (isLiteral_of_check h)
      obtain ⟨cs', hcs', hcloses'⟩ := Literal.isLiteral_iff.mp (isLiteral_of_check h')
      rw [hcs, hcs'] at heq ⊢
      obtain ⟨rfl, hrest⟩ := Literal.closes_append_inj hcloses hcloses' (List.cons.inj heq).2
      exact ⟨rfl, hrest⟩
    · exact append_inj_of_free (isMark_of_check htype h).2 (isMark_of_check htype h').2 hrest hrest'
        heq
  exact ⟨String.toList_inj.mp hsame.1, hsame.2⟩

end Atom

end FormulaEdit
