import FormulaEdit.Proofs.AtomText
import FormulaEdit.Proofs.Resolve

/-!
# The grammar of kind expressions

`KindExpr.read` goes over the tokens of a text once and keeps the constructors that are still open
on a stack. Here the expressions are given by their grammar, with no reader in sight:

    kind := name | LIST '[' kind ']' | UNION '[' kind (',' kind)* ']'

A `Derivation` is a way to derive an expression by these rules, and its `yield` is the tokens that
it derives the expression from. `Lexes` says which tokens a text has. A text can be read exactly if
its tokens are the yield of a derivation, and what is read is what is derived. The text of a kind
is read back as the kind, unless an operator in it has a name that cannot be written or a union in
it has no variants.

## One derivation

The words of constructors are part of a derivation, since they may be written in any mix of cases.
So it is more to say that tokens have one derivation than that they give one expression. The
derivation is found from the left: the token after a name is an opening bracket exactly if the name
is the word of a constructor. This holds because no opening bracket follows a kind. Soundness of the
reader is an induction on the tokens that are left, in which the stack stands for the tokens that
were read to open it (`Opened.consumed`). Completeness is an induction on the derivation, with the
stack and the tokens after it left open (`Derivation.Passed`).
-/

namespace FormulaEdit

open Text

namespace KindExpr

/-! ## Tokens -/

/-- The tokens of a text: the three marks, and the longest runs of other characters but blanks. -/
inductive Lexes : List Char → List Token → Prop
  | done : Lexes [] []
  | blank {c : Char} {rest : List Char} {ts : List Token} (skip : isBlank c = true)
      (lexes : Lexes rest ts) : Lexes (c :: rest) ts
  | opening {rest : List Char} {ts : List Token} (lexes : Lexes rest ts) :
      Lexes ('[' :: rest) (.opening :: ts)
  | closing {rest : List Char} {ts : List Token} (lexes : Lexes rest ts) :
      Lexes (']' :: rest) (.closing :: ts)
  | comma {rest : List Char} {ts : List Token} (lexes : Lexes rest ts) :
      Lexes (',' :: rest) (.comma :: ts)
  | name {run rest : List Char} {ts : List Token} (ne : run ≠ [])
      (inside : ∀ c ∈ run, isNameChar c = true) (maximal : rest.head?.any isNameChar = false)
      (lexes : Lexes rest ts) : Lexes (run ++ rest) (.name (String.ofList run) :: ts)

theorem isNameChar_iff {c : Char} :
    isNameChar c = true ↔ isBlank c = false ∧ c ≠ '[' ∧ c ≠ ']' ∧ c ≠ ',' := by
  simp [isNameChar, and_assoc]

theorem tokens_run {run rest : List Char} (hne : run ≠ [])
    (hinside : ∀ c ∈ run, isNameChar c = true) (hmaximal : rest.head?.any isNameChar = false)
    (offset : Nat) : ∃ later, tokens offset (run ++ rest) =
      (.name (String.ofList run), offset) :: tokens later rest := by
  induction run generalizing offset with
  | nil => exact absurd rfl hne
  | cons c run ih =>
    rw [List.forall_mem_cons] at hinside
    obtain ⟨hblank, hopening, hclosing, hcomma⟩ := isNameChar_iff.mp hinside.1
    rw [List.cons_append, tokens]
    simp only [hblank, if_neg hopening, if_neg hclosing, if_neg hcomma, Bool.false_eq_true,
      if_false]
    by_cases hrun : run = []
    · rw [hrun, List.nil_append, hmaximal]
      exact ⟨_, rfl⟩
    · -- the character joins the name that the rest of the run is
      obtain ⟨later, hlater⟩ := ih hrun hinside.2 (offset + c.utf8Size)
      have hnext : (run ++ rest).head?.any isNameChar = true := by
        obtain ⟨c', run', rfl⟩ := List.exists_cons_of_ne_nil hrun
        exact hinside.2 c' List.mem_cons_self
      simp only [hnext, hlater, String.toList_ofList]
      exact ⟨later, rfl⟩

theorem Lexes.eq_tokens {cs : List Char} {ts : List Token} (h : Lexes cs ts) (offset : Nat) :
    (tokens offset cs).map Prod.fst = ts := by
  induction h generalizing offset with
  | done => rfl
  | blank skip _ ih => rw [tokens, if_pos skip, ih]
  | opening _ ih => rw [tokens, if_neg (by decide), if_pos rfl, List.map_cons, ih]
  | closing _ ih =>
    rw [tokens, if_neg (by decide), if_neg (by decide), if_pos rfl, List.map_cons, ih]
  | comma _ ih =>
    rw [tokens, if_neg (by decide), if_neg (by decide), if_neg (by decide), if_pos rfl,
      List.map_cons, ih]
  | name ne inside maximal _ ih =>
    obtain ⟨later, hlater⟩ := tokens_run ne inside maximal offset
    rw [hlater, List.map_cons, ih]

/-- Every text has tokens: each character is a blank, a mark or the start of a longest run. -/
theorem exists_lexes (cs : List Char) : ∃ ts, Lexes cs ts := by
  match cs with
  | [] => exact ⟨[], .done⟩
  | c :: rest =>
    by_cases hname : isNameChar c = true
    · obtain ⟨ts, hts⟩ := exists_lexes (rest.dropWhile isNameChar)
      have hinside : ∀ d ∈ c :: rest.takeWhile isNameChar, isNameChar d = true :=
        List.forall_mem_cons.mpr ⟨hname, fun d hd ↦ List.all_eq_true.mp List.all_takeWhile d hd⟩
      have hmaximal : (rest.dropWhile isNameChar).head?.any isNameChar = false := by
        have hhead := List.head?_dropWhile_not isNameChar rest
        cases hnext : (rest.dropWhile isNameChar).head? with
        | none => rfl
        | some d => simpa [hnext] using hhead
      have hlexes := Lexes.name (List.cons_ne_nil _ _) hinside hmaximal hts
      rw [List.cons_append, List.takeWhile_append_dropWhile] at hlexes
      exact ⟨_, hlexes⟩
    · obtain ⟨ts, hts⟩ := exists_lexes rest
      by_cases hblank : isBlank c = true
      · exact ⟨ts, .blank hblank hts⟩
      · have hmark : c = '[' ∨ c = ']' ∨ c = ',' := by
          by_contra hnone
          simp only [not_or] at hnone
          exact hname (isNameChar_iff.mpr ⟨Bool.not_eq_true _ ▸ hblank, hnone⟩)
        rcases hmark with rfl | rfl | rfl
        · exact ⟨_, .opening hts⟩
        · exact ⟨_, .closing hts⟩
        · exact ⟨_, .comma hts⟩
termination_by cs.length
decreasing_by
  · exact Nat.lt_succ_of_le (List.dropWhile_sublist isNameChar).length_le
  · exact Nat.lt_succ_self _

theorem lexes_iff {cs : List Char} {ts : List Token} (offset : Nat) :
    Lexes cs ts ↔ (tokens offset cs).map Prod.fst = ts := by
  constructor
  · intro h
    exact h.eq_tokens offset
  · intro h
    obtain ⟨ts', hts'⟩ := exists_lexes cs
    rw [← h, hts'.eq_tokens offset]
    exact hts'

/-! ## Derivations -/

/-- A derivation of a kind expression. A constructor keeps its word as it is written, and a union
has a first item. -/
inductive Derivation where
  | name (word : String)
  | list (word : String) (spells : folded word = "list") (element : Derivation)
  | union (word : String) (spells : folded word = "union") (first : Derivation)
      (others : List Derivation)

namespace Derivation

def expr : Derivation → KindExpr
  | .name word => .name word
  | .list _ _ element => .list element.expr
  | .union _ _ first others => .union (first.expr :: exprs others)
where
  /-- The expressions that several derivations derive. -/
  exprs : List Derivation → List KindExpr
    | [] => []
    | d :: ds => d.expr :: exprs ds

def yield : Derivation → List Token
  | .name word => [.name word]
  | .list word _ element => .name word :: .opening :: (element.yield ++ [.closing])
  | .union word _ first others =>
    .name word :: .opening :: (first.yield ++ (continued others ++ [.closing]))
where
  /-- The tokens of further items, each after a comma. -/
  continued : List Derivation → List Token
    | [] => []
    | d :: ds => .comma :: (d.yield ++ continued ds)

@[elab_as_elim]
theorem induction {P : Derivation → Prop} (name : ∀ word, P (.name word))
    (list : ∀ word spells element, P element → P (.list word spells element))
    (union : ∀ word spells first others, P first → (∀ d ∈ others, P d) →
      P (.union word spells first others)) : (d : Derivation) → P d
  | .name word => name word
  | .list word spells element => list word spells element (induction name list union element)
  | .union word spells first others =>
    union word spells first others (induction name list union first)
      fun d _ ↦ induction name list union d

theorem exprs_eq_map (ds : List Derivation) : expr.exprs ds = ds.map expr := by
  induction ds with
  | nil => rfl
  | cons d ds ih => rw [expr.exprs, ih, List.map_cons]

/-! ## Tokens have one derivation -/

/-- What may follow a kind: anything but an opening bracket, which would make a name before it the
word of a constructor. -/
def Follows (ts : List Token) : Prop := ts.head? ≠ some .opening

theorem follows_continued (ds : List Derivation) (ts : List Token) :
    Follows (yield.continued ds ++ .closing :: ts) := by
  cases ds <;> simp [Follows, yield.continued]

theorem follows_nil : Follows [] := by
  simp [Follows]

theorem follows_closing (ts : List Token) : Follows (.closing :: ts) := by
  simp [Follows]

/-- Whether a derivation can be told from what follows its tokens. -/
def Told (d : Derivation) : Prop :=
  ∀ (d' : Derivation) (ts ts' : List Token), Follows ts → Follows ts' →
    d.yield ++ ts = d'.yield ++ ts' → d = d' ∧ ts = ts'

theorem continued_told {ds : List Derivation} (htold : ∀ d ∈ ds, d.Told) {ds' : List Derivation}
    {ts ts' : List Token}
    (h : yield.continued ds ++ .closing :: ts = yield.continued ds' ++ .closing :: ts') :
    ds = ds' ∧ ts = ts' := by
  induction ds generalizing ds' with
  | nil =>
    cases ds' with
    | nil => exact ⟨rfl, by simpa [yield.continued] using h⟩
    | cons d' ds' => simp [yield.continued] at h
  | cons d ds ih =>
    cases ds' with
    | nil => simp [yield.continued] at h
    | cons d' ds' =>
      rw [List.forall_mem_cons] at htold
      simp only [yield.continued, List.cons_append, List.append_assoc, List.cons.injEq,
        true_and] at h
      obtain ⟨rfl, hrest⟩ := htold.1 d' _ _ (follows_continued _ _) (follows_continued _ _) h
      obtain ⟨rfl, rfl⟩ := ih htold.2 hrest
      exact ⟨rfl, rfl⟩

/-- A name is no constructor, because a constructor has an opening bracket after its word. -/
theorem name_cons_ne {word word' : String} {ts rest : List Token} (hts : Follows ts) :
    Token.name word :: ts ≠ .name word' :: .opening :: rest := by
  intro h
  rw [(List.cons.inj h).2] at hts
  exact hts rfl

theorem told (d : Derivation) : d.Told := by
  induction d using Derivation.induction with
  | name word =>
    intro d' ts ts' hts _ h
    cases d' with
    | name word' => simpa [yield] using h
    | list _ _ _ => exact absurd h (name_cons_ne hts)
    | union _ _ _ _ => exact absurd h (name_cons_ne hts)
  | list word spells element ih =>
    intro d' ts ts' _ hts' h
    cases d' with
    | name _ => exact absurd h.symm (name_cons_ne hts')
    | list word' _ element' =>
      simp only [yield, List.cons_append, List.append_assoc, List.nil_append, List.cons.injEq,
        Token.name.injEq, true_and] at h
      obtain ⟨rfl, h⟩ := h
      obtain ⟨rfl, hrest⟩ := ih element' _ _ (follows_closing _) (follows_closing _) h
      exact ⟨rfl, (List.cons.inj hrest).2⟩
    | union word' spells' _ _ =>
      obtain rfl : word = word' := Token.name.inj (List.cons.inj h).1
      exact absurd (spells.symm.trans spells') (by decide)
  | union word spells first others ih ihs =>
    intro d' ts ts' _ hts' h
    cases d' with
    | name _ => exact absurd h.symm (name_cons_ne hts')
    | list word' spells' _ =>
      obtain rfl : word = word' := Token.name.inj (List.cons.inj h).1
      exact absurd (spells.symm.trans spells') (by decide)
    | union word' _ first' others' =>
      simp only [yield, List.cons_append, List.append_assoc, List.nil_append, List.cons.injEq,
        Token.name.injEq, true_and] at h
      obtain ⟨rfl, h⟩ := h
      obtain ⟨rfl, hrest⟩ := ih first' _ _ (follows_continued _ _) (follows_continued _ _) h
      obtain ⟨rfl, rfl⟩ := continued_told ihs hrest
      exact ⟨rfl, rfl⟩

theorem yield_injective : Function.Injective yield := by
  intro d d' h
  exact (told d d' [] [] follows_nil follows_nil (by rw [h])).1

end Derivation

/-! ## Constructors -/

theorem construct_eq_ok_iff {word : String} {items : List KindExpr} {e : KindExpr} :
    construct word items = .ok e ↔
      (folded word = "list" ∧ ∃ element, items = [element] ∧ e = .list element) ∨
        (folded word = "union" ∧ e = .union items) := by
  unfold construct
  constructor
  · intro h
    split at h
    · next spells =>
      cases h
      exact Or.inl ⟨spells, _, rfl, rfl⟩
    · cases h
    · next spells =>
      cases h
      exact Or.inr ⟨spells, rfl⟩
    · cases h
  · rintro (⟨spells, element, rfl, rfl⟩ | ⟨spells, rfl⟩)
    · rw [spells]
      rfl
    · rw [spells]
      rfl

/-! ## What is derived is read -/

theorem readKind_name {size : Nat} {frames : List Frame} {word : String} {offset : Nat}
    {ts : List (Token × Nat)} (hts : Derivation.Follows (ts.map Prod.fst)) :
    readKind size frames ((.name word, offset) :: ts) = readAfter size (.name word) frames ts := by
  rw [readKind]
  rintro place ts' rfl
  exact hts rfl

theorem exists_readKind_opening {word : String} {placed : List (Token × Nat)} {ts : List Token}
    (h : placed.map Prod.fst = .name word :: .opening :: ts) (size : Nat) (frames : List Frame) :
    ∃ inner, inner.map Prod.fst = ts ∧
      readKind size frames placed = readKind size (⟨word, []⟩ :: frames) inner := by
  obtain ⟨⟨token, offset⟩, later, rfl, rfl, hlater⟩ := List.map_eq_cons_iff.mp h
  obtain ⟨⟨token, offset'⟩, inner, rfl, rfl, hinner⟩ := List.map_eq_cons_iff.mp hlater
  exact ⟨inner, hinner, by rw [readKind]⟩

namespace Derivation

/-- Whether the reader, where a kind has to start, goes over the tokens of a derivation and goes on
after what is derived. -/
def Passed (d : Derivation) : Prop :=
  ∀ (size : Nat) (frames : List Frame) (placed : List (Token × Nat)) (ts : List Token),
    Follows ts → placed.map Prod.fst = d.yield ++ ts →
      ∃ rest, rest.map Prod.fst = ts ∧
        readKind size frames placed = readAfter size d.expr frames rest

theorem continued_passed (ds : List Derivation) (hpassed : ∀ d ∈ ds, d.Passed) {word : String}
    {items : List KindExpr} {e whole : KindExpr}
    (hwhole : construct word (items ++ e :: ds.map expr) = .ok whole) {size : Nat}
    {outer : List Frame} {placed : List (Token × Nat)} {ts : List Token}
    (h : placed.map Prod.fst = yield.continued ds ++ .closing :: ts) :
    ∃ rest, rest.map Prod.fst = ts ∧
      readAfter size e (⟨word, items⟩ :: outer) placed = readAfter size whole outer rest := by
  induction ds generalizing items e placed with
  | nil =>
    obtain ⟨⟨token, offset⟩, rest, rfl, rfl, hrest⟩ := List.map_eq_cons_iff.mp h
    refine ⟨rest, hrest, ?_⟩
    rw [readAfter]
    simp only [List.map_nil] at hwhole
    simp only [hwhole]
  | cons d ds ih =>
    rw [List.forall_mem_cons] at hpassed
    rw [yield.continued, List.cons_append, List.append_assoc] at h
    obtain ⟨⟨token, offset⟩, later, rfl, rfl, hlater⟩ := List.map_eq_cons_iff.mp h
    obtain ⟨rest, hrest, hread⟩ := hpassed.1 size (⟨word, items ++ [e]⟩ :: outer) later _
      (follows_continued _ _) hlater
    rw [readAfter, hread]
    refine ih hpassed.2 ?_ hrest
    rw [List.append_assoc]
    exact hwhole

theorem passed (d : Derivation) : d.Passed := by
  induction d using Derivation.induction with
  | name word =>
    intro size frames placed ts hts h
    obtain ⟨⟨token, offset⟩, rest, rfl, rfl, hrest⟩ := List.map_eq_cons_iff.mp h
    refine ⟨rest, hrest, readKind_name ?_⟩
    rw [hrest]
    exact hts
  | list word spells element ih =>
    intro size frames placed ts _ h
    rw [yield, List.cons_append, List.cons_append, List.append_assoc] at h
    obtain ⟨inner, hinner, hopen⟩ := exists_readKind_opening h size frames
    obtain ⟨rest, hrest, hread⟩ := ih size (⟨word, []⟩ :: frames) inner _ (follows_closing _) hinner
    have hwhole : construct word [element.expr] = .ok (.list element.expr) :=
      construct_eq_ok_iff.mpr (Or.inl ⟨spells, _, rfl, rfl⟩)
    rw [hopen, hread, expr]
    exact continued_passed [] (List.forall_mem_nil _) hwhole hrest
  | union word spells first others ih ihs =>
    intro size frames placed ts _ h
    rw [yield, List.cons_append, List.cons_append, List.append_assoc, List.append_assoc] at h
    obtain ⟨inner, hinner, hopen⟩ := exists_readKind_opening h size frames
    obtain ⟨rest, hrest, hread⟩ :=
      ih size (⟨word, []⟩ :: frames) inner _ (follows_continued _ _) hinner
    have hwhole : construct word (first.expr :: others.map expr) =
        .ok (.union (first.expr :: others.map expr)) :=
      construct_eq_ok_iff.mpr (Or.inr ⟨spells, rfl⟩)
    rw [hopen, hread, expr, exprs_eq_map]
    exact continued_passed others ihs hwhole hrest

end Derivation

/-! ## What is read is derived -/

/-- A constructor that is still open, with the derivations of its items. -/
structure Opened where
  /-- The word before the opening bracket. -/
  word : String
  /-- The derivations of the items before the current one. -/
  items : List Derivation

namespace Opened

def frame (opened : Opened) : Frame := ⟨opened.word, opened.items.map Derivation.expr⟩

/-- The tokens from the word of an open constructor to the comma before the current item. -/
def begun (opened : Opened) : List Token :=
  .name opened.word :: .opening :: opened.items.flatMap fun d ↦ d.yield ++ [.comma]

/-- The tokens that were read to open several constructors, the innermost of which is first. -/
def consumed (stack : List Opened) : List Token := stack.reverse.flatMap begun

theorem consumed_cons (opened : Opened) (stack : List Opened) :
    consumed (opened :: stack) = consumed stack ++ opened.begun := by
  simp [consumed]

theorem flatMap_append_yield (items : List Derivation) (d : Derivation) :
    ∃ first others, items ++ [d] = first :: others ∧
      items.flatMap (fun d ↦ d.yield ++ [.comma]) ++ d.yield =
        first.yield ++ Derivation.yield.continued others := by
  induction items with
  | nil => exact ⟨d, [], rfl, by simp [Derivation.yield.continued]⟩
  | cons item items ih =>
    obtain ⟨first, others, hitems, htokens⟩ := ih
    refine ⟨item, first :: others, by rw [List.cons_append, hitems], ?_⟩
    rw [List.flatMap_cons, List.append_assoc, htokens]
    simp [Derivation.yield.continued]

theorem exists_derivation {opened : Opened} {d : Derivation} {whole : KindExpr}
    (h : construct opened.word (opened.items.map Derivation.expr ++ [d.expr]) = .ok whole) :
    ∃ d' : Derivation, d'.expr = whole ∧ d'.yield = opened.begun ++ (d.yield ++ [.closing]) := by
  obtain ⟨first, others, hitems, htokens⟩ := flatMap_append_yield opened.items d
  have hexprs : opened.items.map Derivation.expr ++ [d.expr] =
      first.expr :: others.map Derivation.expr := by
    rw [← List.map_cons, ← hitems, List.map_append, List.map_singleton]
  have hyield : opened.begun ++ (d.yield ++ [.closing]) = .name opened.word :: .opening ::
      (first.yield ++ (Derivation.yield.continued others ++ [.closing])) := by
    rw [begun, List.cons_append, List.cons_append, ← List.append_assoc, htokens, List.append_assoc]
  rw [hexprs] at h
  rw [hyield]
  rcases construct_eq_ok_iff.mp h with ⟨spells, element, helement, rfl⟩ | ⟨spells, rfl⟩
  · obtain ⟨rfl, hothers⟩ := List.cons.inj helement
    obtain rfl := List.map_eq_nil_iff.mp hothers
    exact ⟨.list opened.word spells first, rfl, rfl⟩
  · refine ⟨.union opened.word spells first others, ?_, rfl⟩
    rw [Derivation.expr, Derivation.exprs_eq_map]

end Opened

open Opened

mutual

/-- What is read inside open constructors is derived from the tokens that were read to open them
and those that are left. -/
theorem exists_derivation_of_readKind {size : Nat} (stack : List Opened) (ts : List (Token × Nat))
    {e : KindExpr} (h : readKind size (stack.map frame) ts = .ok e) :
    ∃ d : Derivation, d.expr = e ∧ d.yield = consumed stack ++ ts.map Prod.fst := by
  unfold readKind at h
  split at h
  · next word _ _ ts =>
    obtain ⟨d, hd, hyield⟩ := exists_derivation_of_readKind (⟨word, []⟩ :: stack) ts h
    rw [consumed_cons, List.append_assoc] at hyield
    exact ⟨d, hd, hyield⟩
  · next word _ ts _ => exact exists_derivation_of_readAfter (.name word) stack ts h
  · cases h
termination_by ts.length

theorem exists_derivation_of_readAfter {size : Nat} (current : Derivation) (stack : List Opened)
    (ts : List (Token × Nat)) {e : KindExpr}
    (h : readAfter size current.expr (stack.map frame) ts = .ok e) :
    ∃ d : Derivation, d.expr = e ∧
      d.yield = consumed stack ++ (current.yield ++ ts.map Prod.fst) := by
  match stack, ts with
  | [], [] =>
    rw [List.map_nil, readAfter] at h
    exact ⟨current, Except.ok.inj h, by simp [consumed]⟩
  | [], (token, offset) :: ts =>
    rw [List.map_nil, readAfter] at h
    cases h
  | opened :: stack, [] =>
    rw [List.map_cons, readAfter] at h
    cases h
  | opened :: stack, (.comma, offset) :: ts =>
    -- the current item is the last one before the next
    have hframe : ({ opened.frame with items := opened.frame.items ++ [current.expr] } : Frame) =
        frame ⟨opened.word, opened.items ++ [current]⟩ := by
      simp [frame]
    rw [List.map_cons, readAfter, hframe] at h
    obtain ⟨d, hd, hyield⟩ :=
      exists_derivation_of_readKind (⟨opened.word, opened.items ++ [current]⟩ :: stack) ts h
    refine ⟨d, hd, ?_⟩
    rw [hyield, consumed_cons, consumed_cons]
    simp [begun]
  | opened :: stack, (.closing, offset) :: ts =>
    rw [List.map_cons, readAfter] at h
    split at h
    · next whole hwhole =>
      obtain ⟨closed, rfl, hclosed⟩ := exists_derivation hwhole
      obtain ⟨d, hd, hyield⟩ := exists_derivation_of_readAfter closed stack ts h
      refine ⟨d, hd, ?_⟩
      rw [hyield, hclosed, consumed_cons]
      simp
    · cases h
  | opened :: stack, (.opening, offset) :: ts =>
    rw [List.map_cons, readAfter] at h
    · cases h
    · simp
    · simp
  | opened :: stack, (.name word, offset) :: ts =>
    rw [List.map_cons, readAfter] at h
    · cases h
    · simp
    · simp
termination_by ts.length

end

theorem read_eq_ok_iff {source : String} {e : KindExpr} :
    read source = .ok e ↔ ∃ d : Derivation, Lexes source.toList d.yield ∧ d.expr = e := by
  constructor
  · intro h
    obtain ⟨d, hd, hyield⟩ := exists_derivation_of_readKind [] _ h
    exact ⟨d, (lexes_iff 0).mpr hyield.symm, hd⟩
  · rintro ⟨d, hlexes, rfl⟩
    have hplaced : (tokens 0 source.toList).map Prod.fst = d.yield ++ [] := by
      rw [List.append_nil]
      exact hlexes.eq_tokens 0
    obtain ⟨rest, hrest, hread⟩ :=
      d.passed source.utf8ByteSize [] _ [] Derivation.follows_nil hplaced
    rw [List.map_eq_nil_iff.mp hrest] at hread
    rw [read, hread, readAfter]

/-! ## Written kinds are read back -/

/-- The expression of a kind, with its structure and its names. -/
def ofKind : Kind → KindExpr
  | .atom type => .name type.name
  | .operator word => .name word
  | .union variants => .union (ofKinds variants)
  | .list element => .list (ofKind element)
where
  /-- The expressions of several kinds. -/
  ofKinds : List Kind → List KindExpr
    | [] => []
    | k :: ks => ofKind k :: ofKinds ks

/-- Whether a word can be written as a name: it has characters, and none is a blank or a mark. -/
def IsName (word : String) : Prop := word ≠ "" ∧ ∀ c ∈ word.toList, isNameChar c = true

instance (word : String) : Decidable (IsName word) :=
  decidable_of_iff (word ≠ "" ∧ word.toList.all isNameChar = true)
    (by rw [IsName, List.all_eq_true])

theorem isName_atom (type : Atom) : IsName type.name := by
  cases type <;> decide

/-- Whether a text has the given tokens wherever no name goes on after it. -/
def Writes (cs : List Char) (written : List Token) : Prop :=
  ∀ (rest : List Char) (ts : List Token), rest.head?.any isNameChar = false → Lexes rest ts →
    Lexes (cs ++ rest) (written ++ ts)

theorem writes_nil : Writes [] [] := fun _ _ _ hlexes ↦ hlexes

theorem writes_name {word : String} (h : IsName word) : Writes word.toList [.name word] := by
  intro rest ts hrest hlexes
  have hrun : word.toList ≠ [] := fun hnil ↦ h.1 (String.toList_eq_nil_iff.mp hnil)
  have hname := Lexes.name hrun h.2 hrest hlexes
  rw [String.ofList_toList] at hname
  exact hname

theorem Writes.append {cs cs' : List Char} {written written' : List Token} (h : Writes cs written)
    (h' : Writes cs' written') (hstart : cs'.head?.any isNameChar = false) :
    Writes (cs ++ cs') (written ++ written') := by
  intro rest ts hrest hlexes
  rw [List.append_assoc, List.append_assoc]
  refine h _ _ ?_ (h' rest ts hrest hlexes)
  by_cases hempty : cs' = []
  · rw [hempty, List.nil_append]
    exact hrest
  · rw [List.head?_append_of_ne_nil _ hempty]
    exact hstart

theorem Writes.continued {cs : List Char} {written : List Token} (h : Writes cs written) :
    Writes (',' :: ' ' :: cs) (.comma :: written) := by
  intro rest ts hrest hlexes
  exact .comma (.blank rfl (h rest ts hrest hlexes))

theorem Writes.bracketed {word : String} {cs : List Char} {written : List Token}
    (hword : Writes word.toList [.name word]) (h : Writes cs written) :
    Writes (word.toList ++ '[' :: (cs ++ [']']))
      (.name word :: .opening :: (written ++ [.closing])) := by
  have hclosing : Writes [']'] [.closing] := fun _ _ _ hlexes ↦ .closing hlexes
  have hitems : Writes ('[' :: (cs ++ [']'])) (.opening :: (written ++ [.closing])) := by
    intro rest ts hrest hlexes
    exact .opening (h.append hclosing rfl rest ts hrest hlexes)
  exact hword.append hitems rfl

/-- The texts of variants after the first, each after a comma and a blank. -/
def furtherTexts (variants : List Kind) : List Char :=
  variants.flatMap fun variant ↦ ',' :: ' ' :: variant.text.toList

theorem texts_eq_map (kinds : List Kind) : Kind.text.texts kinds = kinds.map Kind.text := by
  induction kinds with
  | nil => rfl
  | cons kind kinds ih => rw [Kind.text.texts, ih, List.map_cons]

theorem toList_text_union (first : Kind) (others : List Kind) :
    (Kind.union (first :: others)).text.toList =
      "Union".toList ++ '[' :: (first.text.toList ++ furtherTexts others ++ [']']) := by
  rw [Kind.text, texts_eq_map, List.map_cons, String.toList_append, String.toList_append,
    toList_intercalate_cons, List.flatMap_map, List.append_assoc]
  rfl

theorem toList_text_list (element : Kind) :
    (Kind.list element).text.toList = "List".toList ++ '[' :: (element.text.toList ++ [']']) := by
  rw [Kind.text, String.toList_append, String.toList_append, List.append_assoc]
  rfl

end KindExpr

/-- A kind that can be read back from its text. The names of its operators can be written, and each
of its unions has a variant. -/
structure Kind.Writable (kind : Kind) : Prop where
  /-- The names of operators can stand in an expression. -/
  names : ∀ name, (Kind.operator name).Within kind → KindExpr.IsName name
  /-- No union is empty. -/
  unions : ¬(Kind.union []).Within kind

theorem Kind.Writable.of_within {kind inner : Kind} (h : kind.Writable)
    (hinner : inner.Within kind) : inner.Writable where
  names name hname := h.names name (hname.trans hinner)
  unions hunion := h.unions (hunion.trans hinner)

namespace KindExpr

mutual

theorem exists_derivation_of_writable : (kind : Kind) → kind.Writable →
    ∃ d : Derivation, d.expr = ofKind kind ∧ Writes kind.text.toList d.yield
  | .atom type, _ => ⟨.name type.name, rfl, writes_name (isName_atom type)⟩
  | .operator word, h => ⟨.name word, rfl, writes_name (h.names word .refl)⟩
  | .list element, h => by
    obtain ⟨d, hd, hwrites⟩ := exists_derivation_of_writable element (h.of_within (.element .refl))
    refine ⟨.list "List" (by decide) d, by rw [Derivation.expr, hd, ofKind], ?_⟩
    rw [toList_text_list]
    exact Writes.bracketed (writes_name (by decide)) hwrites
  | .union [], h => absurd .refl h.unions
  | .union (first :: others), h => by
    obtain ⟨d, hd, hfirst⟩ :=
      exists_derivation_of_writable first (h.of_within (.variant List.mem_cons_self .refl))
    obtain ⟨ds, hds, hothers⟩ := exists_derivations_of_writable others fun variant hvariant ↦
      h.of_within (.variant (List.mem_cons_of_mem _ hvariant) .refl)
    refine ⟨.union "Union" (by decide) d ds, ?_, ?_⟩
    · rw [Derivation.expr, hd, hds, ofKind, ofKind.ofKinds]
    · have hstart : (furtherTexts others).head?.any isNameChar = false := by
        cases others <;> rfl
      rw [toList_text_union, Derivation.yield, ← List.append_assoc d.yield]
      exact Writes.bracketed (writes_name (by decide)) (hfirst.append hothers hstart)

theorem exists_derivations_of_writable : (variants : List Kind) →
    (∀ variant ∈ variants, variant.Writable) → ∃ ds : List Derivation,
      Derivation.expr.exprs ds = ofKind.ofKinds variants ∧
        Writes (furtherTexts variants) (Derivation.yield.continued ds)
  | [], _ => ⟨[], rfl, writes_nil⟩
  | variant :: variants, h => by
    rw [List.forall_mem_cons] at h
    obtain ⟨d, hd, hwrites⟩ := exists_derivation_of_writable variant h.1
    obtain ⟨ds, hds, hrest⟩ := exists_derivations_of_writable variants h.2
    have hstart : (furtherTexts variants).head?.any isNameChar = false := by
      cases variants <;> rfl
    refine ⟨d :: ds, by rw [Derivation.expr.exprs, hd, hds, ofKind.ofKinds], ?_⟩
    exact hwrites.continued.append hrest hstart

end

theorem read_text {kind : Kind} (h : kind.Writable) : read kind.text = .ok (ofKind kind) := by
  obtain ⟨d, hd, hwrites⟩ := exists_derivation_of_writable kind h
  refine read_eq_ok_iff.mpr ⟨d, ?_, hd⟩
  have hlexes := hwrites [] [] rfl .done
  rw [List.append_nil, List.append_nil] at hlexes
  exact hlexes

/-- **Exactly the grammar is read.** A text has one sequence of tokens, and tokens have at most one
derivation. A text is read as an expression exactly if this is what is derived from its tokens. What
is read of the text of a kind has the structure and the names of the kind. -/
theorem read_exact :
    (∀ source : String, ∃! ts, Lexes source.toList ts) ∧
      Function.Injective Derivation.yield ∧
      (∀ (source : String) (e : KindExpr), read source = .ok e ↔
        ∃ d : Derivation, Lexes source.toList d.yield ∧ d.expr = e) ∧
      ∀ kind : Kind, kind.Writable → read kind.text = .ok (ofKind kind) := by
  refine ⟨?_, Derivation.yield_injective, fun _ _ ↦ read_eq_ok_iff, fun _ ↦ read_text⟩
  intro source
  obtain ⟨ts, hts⟩ := exists_lexes source.toList
  refine ⟨ts, hts, ?_⟩
  intro ts' hts'
  rw [← hts.eq_tokens 0, hts'.eq_tokens 0]

/-- Operators may have the words of constructors as their names. -/
theorem read_exact_constructor_words :
    (Kind.union [.operator "list", .list (.operator "Union")]).Writable ∧
      read "Union[list, List[Union]]" = .ok (.union [.name "list", .list (.name "Union")]) := by
  have hwritable : (Kind.union [.operator "list", .list (.operator "Union")]).Writable := by
    constructor
    · rintro word (_ | _ | ⟨mem, h⟩)
      simp only [List.mem_cons, List.not_mem_nil, or_false] at mem
      rcases mem with rfl | rfl
      · obtain ⟨⟩ := h
        decide
      · obtain _ | ⟨⟨⟩⟩ := h
        decide
    · rintro (_ | _ | ⟨mem, h⟩)
      simp only [List.mem_cons, List.not_mem_nil, or_false] at mem
      rcases mem with rfl | rfl
      · cases h
      · obtain _ | ⟨⟨⟩⟩ := h
  exact ⟨hwritable, read_exact.2.2.2 _ hwritable⟩

end KindExpr

end FormulaEdit
