import FormulaEdit.Grammar.Depth
import Mathlib.Data.List.MinMax
import Mathlib.Order.Nat

/-!
# Default depth, apart from how it is found

`Grammar.operatorDepth` finds the default depth of an operator by a walk that keeps the depths it
has seen and stops when it comes back to an operator on its way. `HasDepth` says what the depth is,
without a walk: one level for atoms and lists, one more than the first variant for unions, one more
than the deepest argument for operators. It is a least relation, so a kind whose defaults never end
has no depth.

The walk is correct in both directions. What it returns is the depth; and where it gives up, there
is no depth within `maxDepth`. For the second half the operators on the way have to be known to lead
to the one in hand, since meeting one of them again is a fault only because it then would be deeper
than itself. This is `Above`.
-/

namespace FormulaEdit.Grammar

/-- A kind whose default has this number of levels. -/
inductive HasDepth (g : Grammar) : Kind → Nat → Prop
  | atom (type : Atom) : HasDepth g (.atom type) 1
  | list (element : Kind) : HasDepth g (.list element) 1
  | union {first : Kind} {depth : Nat} (rest : List Kind) (first_depth : HasDepth g first depth) :
      HasDepth g (.union (first :: rest)) (depth + 1)
  | operator {name : String} {op : Operator Kind} (depths : Argument Kind → Nat)
      (found : g.find? name = some op)
      (arg_depth : ∀ arg ∈ op.args, HasDepth g arg.kind (depths arg)) :
      HasDepth g (.operator name) ((op.args.map depths).foldr max 0 + 1)

variable {g : Grammar}

namespace HasDepth

theorem union_inv {first : Kind} {rest : List Kind} {n : Nat}
    (h : g.HasDepth (.union (first :: rest)) n) : ∃ m, n = m + 1 ∧ g.HasDepth first m := by
  cases h with
  | union rest h => exact ⟨_, rfl, h⟩

theorem operator_inv {name : String} {n : Nat} (h : g.HasDepth (.operator name) n) :
    ∃ op, g.find? name = some op ∧ ∀ arg ∈ op.args, ∃ m < n, g.HasDepth arg.kind m := by
  cases h with
  | @operator _ op depths found arg_depth =>
    refine ⟨op, found, fun arg harg ↦ ⟨depths arg, ?_, arg_depth arg harg⟩⟩
    exact Nat.lt_succ_of_le (List.le_max_of_le' 0 (List.mem_map_of_mem harg) le_rfl)

theorem unique {kind : Kind} {n m : Nat} (hn : g.HasDepth kind n) (hm : g.HasDepth kind m) :
    n = m := by
  induction hn generalizing m with
  | atom type => cases hm; rfl
  | list element => cases hm; rfl
  | union rest _ ih =>
    obtain ⟨k, rfl, hk⟩ := hm.union_inv
    rw [ih hk]
  | @operator name op depths found _ ih =>
    cases hm with
    | @operator _ op' depths' found' arg_depth' =>
      obtain rfl : op = op' := Option.some.inj (found.symm.trans found')
      rw [List.map_congr_left fun arg harg ↦ ih arg harg (arg_depth' arg harg)]

theorem of_args {name : String} {op : Operator Kind} {n : Nat} (found : g.find? name = some op)
    (hargs : ∀ arg ∈ op.args, ∃ m ≤ n, g.HasDepth arg.kind m) :
    ∃ m ≤ n + 1, g.HasDepth (.operator name) m := by
  have hchoice : ∀ arg : Argument Kind, ∃ m, arg ∈ op.args → m ≤ n ∧ g.HasDepth arg.kind m := by
    intro arg
    by_cases harg : arg ∈ op.args
    · obtain ⟨m, hm⟩ := hargs arg harg
      exact ⟨m, fun _ ↦ hm⟩
    · exact ⟨0, fun h ↦ absurd h harg⟩
  choose depths hdepths using hchoice
  refine ⟨_, Nat.succ_le_succ ?_, .operator depths found fun arg harg ↦ (hdepths arg harg).2⟩
  refine List.max_le_of_forall_le (op.args.map depths) n fun m hm ↦ ?_
  obtain ⟨arg, harg, rfl⟩ := List.mem_map.mp hm
  exact (hdepths arg harg).1

theorem of_deepest {name : String} {op : Operator Kind} {n : Nat} (found : g.find? name = some op)
    (hargs : ∀ arg ∈ op.args, ∃ m ≤ n, g.HasDepth arg.kind m)
    (hdeepest : n = 0 ∨ ∃ arg ∈ op.args, g.HasDepth arg.kind n) :
    g.HasDepth (.operator name) (n + 1) := by
  obtain ⟨m, hm, hd⟩ := of_args found hargs
  obtain ⟨op', found', hargs'⟩ := hd.operator_inv
  obtain rfl : op = op' := Option.some.inj (found.symm.trans found')
  have hle : n + 1 ≤ m := by
    rcases hdeepest with rfl | ⟨arg, harg, hn⟩
    · cases hd with
      | operator => omega
    · obtain ⟨k, hk, hd'⟩ := hargs' arg harg
      rw [hn.unique hd']
      exact hk
  rwa [le_antisymm hle hm]

end HasDepth

/-! ## What a walk keeps and what it returns -/

/-- The depths kept by a walk are right, and within the bound. -/
def Known (g : Grammar) (known : List (String × Nat)) : Prop :=
  ∀ entry ∈ known, g.HasDepth (.operator entry.1) entry.2 ∧ entry.2 ≤ maxDepth

/-- Every operator of `path` that has a depth is deeper than `kind`. -/
def Above (g : Grammar) (path : List String) (kind : Kind) : Prop :=
  ∀ name ∈ path, ∀ n, g.HasDepth (.operator name) n → ∃ m < n, g.HasDepth kind m

/-- The outcome of a walk for the depth of a kind is right: the depth, or a fault if there is none
within the bound. -/
def Measures (g : Grammar) (kind : Kind) : Except DepthFault (Nat × List (String × Nat)) → Prop
  | .ok (depth, known) => g.HasDepth kind depth ∧ g.Known known
  | .error _ => ∀ n ≤ maxDepth, ¬g.HasDepth kind n

theorem known_nil (g : Grammar) : g.Known [] := fun _ h ↦ by cases h

theorem Known.lookup {known : List (String × Nat)} {name : String} {depth : Nat}
    (h : g.Known known) (hl : known.lookup name = some depth) :
    g.HasDepth (.operator name) depth ∧ depth ≤ maxDepth := by
  obtain ⟨before, after, rfl, _⟩ := List.lookup_eq_some_iff.mp hl
  exact h (name, depth) (by simp)

theorem Above.union {path : List String} {first : Kind} {rest : List Kind}
    (h : g.Above path (.union (first :: rest))) : g.Above path first := by
  intro name hname n hn
  obtain ⟨m, hm, hd⟩ := h name hname n hn
  obtain ⟨k, rfl, hk⟩ := hd.union_inv
  exact ⟨k, by omega, hk⟩

theorem Above.arg {path : List String} {name : String} {op : Operator Kind} {arg : Argument Kind}
    (h : g.Above path (.operator name)) (found : g.find? name = some op) (harg : arg ∈ op.args) :
    g.Above (name :: path) arg.kind := by
  have hself : ∀ n, g.HasDepth (.operator name) n → ∃ m < n, g.HasDepth arg.kind m := by
    intro n hn
    obtain ⟨op', found', hargs⟩ := hn.operator_inv
    obtain rfl : op = op' := Option.some.inj (found.symm.trans found')
    exact hargs arg harg
  intro other hother n hn
  rcases List.mem_cons.mp hother with rfl | hother
  · exact hself n hn
  · obtain ⟨m, hm, hd⟩ := h other hother n hn
    obtain ⟨k, hk, hd'⟩ := hself m hd
    exact ⟨k, hk.trans hm, hd'⟩

theorem Above.not_hasDepth {path : List String} {name : String} (h : g.Above path (.operator name))
    (hmem : name ∈ path) (n : Nat) : ¬g.HasDepth (.operator name) n := by
  intro hn
  obtain ⟨m, hm, hd⟩ := h name hmem n hn
  exact absurd (hd.unique hn) (Nat.ne_of_lt hm)

/-! ## The walk -/

theorem measures_kindDepth {path : List String} {walk : String → DepthWalk Nat}
    (hwalk : ∀ name, g.Above path (.operator name) → ∀ known, g.Known known →
      g.Measures (.operator name) (walk name known)) (kind : Kind) :
    g.Above path kind → ∀ known, g.Known known → g.Measures kind (kindDepth walk kind known) := by
  fun_induction kindDepth walk kind with
  | case1 type => exact fun _ known hknown ↦ ⟨.atom type, hknown⟩
  | case2 element => exact fun _ known hknown ↦ ⟨.list element, hknown⟩
  | case3 name => exact fun habove known hknown ↦ hwalk name habove known hknown
  | case4 => exact fun _ known _ n _ h ↦ by cases h
  | case5 first rest ih =>
    intro habove known hknown
    have hfirst := ih habove.union known hknown
    simp only [bind, StateT.bind]
    cases hres : kindDepth walk first known with
    | error fault =>
      rw [hres] at hfirst
      intro n hn hd
      obtain ⟨m, rfl, hm⟩ := hd.union_inv
      exact hfirst m (by omega) hm
    | ok result =>
      rw [hres] at hfirst
      exact ⟨.union rest hfirst.1, hfirst.2⟩

/-- The walk over the arguments of an operator ends with the depth of the deepest one, or with a
fault in one of them. -/
theorem argsDepth_spec {walk : Kind → DepthWalk Nat} {args : List (Argument Kind)}
    (hwalk : ∀ arg ∈ args, ∀ known, g.Known known → g.Measures arg.kind (walk arg.kind known))
    (deepest : Nat) (known : List (String × Nat)) (hknown : g.Known known) :
    match argsDepth walk args deepest known with
    | .ok (n, known) => g.Known known ∧ deepest ≤ n ∧
        (∀ arg ∈ args, ∃ m ≤ n, g.HasDepth arg.kind m) ∧
        (n = deepest ∨ ∃ arg ∈ args, g.HasDepth arg.kind n)
    | .error _ => ∃ arg ∈ args, ∀ n ≤ maxDepth, ¬g.HasDepth arg.kind n := by
  induction args generalizing deepest known with
  | nil => exact ⟨hknown, le_rfl, by simp, Or.inl rfl⟩
  | cons arg args ih =>
    have harg := hwalk arg List.mem_cons_self known hknown
    simp only [argsDepth, bind, StateT.bind]
    cases hres : walk arg.kind known with
    | error fault =>
      rw [hres] at harg
      exact ⟨arg, List.mem_cons_self, harg⟩
    | ok result =>
      obtain ⟨depth, known'⟩ := result
      rw [hres] at harg
      have hrest := ih (fun other h ↦ hwalk other (List.mem_cons_of_mem _ h)) (max deepest depth)
        known' harg.2
      simp only [Except.bind]
      cases hargs : argsDepth walk args (max deepest depth) known' with
      | error fault =>
        rw [hargs] at hrest
        obtain ⟨other, hother, hnone⟩ := hrest
        exact ⟨other, List.mem_cons_of_mem _ hother, hnone⟩
      | ok result =>
        obtain ⟨n, known''⟩ := result
        rw [hargs] at hrest
        obtain ⟨hknown'', hle, hall, hmax⟩ := hrest
        refine ⟨hknown'', by omega, ?_, ?_⟩
        · intro other hother
          rcases List.mem_cons.mp hother with rfl | hother
          · exact ⟨depth, by omega, harg.1⟩
          · exact hall other hother
        · rcases hmax with rfl | ⟨other, hother, hd⟩
          · rcases le_total deepest depth with h | h
            · rw [max_eq_right h]
              exact Or.inr ⟨arg, List.mem_cons_self, harg.1⟩
            · exact Or.inl (max_eq_left h)
          · exact Or.inr ⟨other, List.mem_cons_of_mem _ hother, hd⟩

theorem mem_names_of_find? {name : String} {op : Operator Kind} (h : g.find? name = some op) :
    name ∈ g.names := by
  have hname : op.name = name := by simpa using List.find?_some h
  exact List.mem_map.mpr ⟨op, List.mem_of_find?_eq_some h, hname⟩

/-- The operators on the way are all different, so a walk that has used up its fuel has met more
operators than there are. -/
theorem length_le_of_nodup_of_subset {path : List String} (hnodup : path.Nodup)
    (hsub : ∀ name ∈ path, name ∈ g.names) : path.length ≤ g.operators.length := by
  simpa [names] using hnodup.length_le_of_subset fun name hname ↦ hsub name hname

theorem operatorDepthWithin_succ (fuel : Nat) (path : List String) (name : String)
    (known : List (String × Nat)) :
    operatorDepthWithin g (fuel + 1) path name known =
      match known.lookup name with
      | some depth => .ok (depth, known)
      | none =>
        match g.find? name with
        | none => .error (.unavailable name)
        | some op =>
          if path.contains name then .error (.endless name)
          else
            match argsDepth (kindDepth (operatorDepthWithin g fuel (name :: path))) op.args 0
              known with
            | .error fault => .error fault
            | .ok (deepest, known) =>
              if maxDepth < deepest + 1 then .error .tooDeep
              else .ok (deepest + 1, (name, deepest + 1) :: known) := by
  simp only [operatorDepthWithin, bind, StateT.bind, get, getThe, MonadStateOf.get, StateT.get,
    pure, Except.pure, Except.bind]
  cases known.lookup name with
  | some depth => rfl
  | none =>
    cases g.find? name with
    | none => rfl
    | some op =>
      dsimp only
      split
      · rfl
      · simp only [StateT.bind, bind, Except.bind]
        cases argsDepth (kindDepth (operatorDepthWithin g fuel (name :: path))) op.args 0 known with
        | error fault => rfl
        | ok result =>
          dsimp only
          split <;> rfl

/-- **The walk is right.** What it returns is the depth of the operator, and where it gives up there
is none within the bound. -/
theorem measures_operatorDepthWithin {fuel : Nat} {path : List String} {name : String}
    (hnodup : path.Nodup) (hsub : ∀ name ∈ path, name ∈ g.names)
    (hfuel : g.operators.length < fuel + path.length) (habove : g.Above path (.operator name))
    (known : List (String × Nat)) (hknown : g.Known known) :
    g.Measures (.operator name) (operatorDepthWithin g fuel path name known) := by
  induction fuel generalizing path name known with
  | zero =>
    have := length_le_of_nodup_of_subset hnodup hsub
    omega
  | succ fuel ih =>
    rw [operatorDepthWithin_succ]
    cases hlookup : known.lookup name with
    | some depth => exact ⟨(hknown.lookup hlookup).1, hknown⟩
    | none =>
      cases hfind : g.find? name with
      | none =>
        intro n _ hd
        obtain ⟨op, hop, _⟩ := hd.operator_inv
        rw [hfind] at hop
        cases hop
      | some op =>
        dsimp only
        by_cases hmem : path.contains name = true
        · rw [if_pos hmem]
          exact fun n _ ↦ habove.not_hasDepth (by simpa using hmem) n
        · rw [if_neg hmem]
          have hpath : (name :: path).Nodup :=
            List.nodup_cons.mpr ⟨by simpa using hmem, hnodup⟩
          have hpathsub : ∀ other ∈ name :: path, other ∈ g.names := by
            intro other hother
            rcases List.mem_cons.mp hother with rfl | hother
            · exact mem_names_of_find? hfind
            · exact hsub other hother
          have hargs := argsDepth_spec
            (fun arg (harg : arg ∈ op.args) ↦ measures_kindDepth
              (fun other hother ↦ ih hpath hpathsub (by simp; omega) hother) arg.kind
              (habove.arg hfind harg)) 0 known hknown
          cases hres : argsDepth (kindDepth (operatorDepthWithin g fuel (name :: path))) op.args 0
              known with
          | error fault =>
            rw [hres] at hargs
            obtain ⟨arg, harg, hnone⟩ := hargs
            intro n hn hd
            obtain ⟨op', hop', hdeep⟩ := hd.operator_inv
            obtain rfl : op = op' := Option.some.inj (hfind.symm.trans hop')
            obtain ⟨m, hm, hd'⟩ := hdeep arg harg
            exact hnone m (by omega) hd'
          | ok result =>
            rw [hres] at hargs
            obtain ⟨hknown', _, hall, hmax⟩ := hargs
            have hdepth := HasDepth.of_deepest hfind hall hmax
            dsimp only
            split
            · intro n hn hd
              have := hd.unique hdepth
              omega
            · refine ⟨hdepth, fun entry hentry ↦ ?_⟩
              rcases List.mem_cons.mp hentry with rfl | hentry
              · exact ⟨hdepth, by omega⟩
              · exact hknown' entry hentry

theorem mem_of_operatorDepthWithin {fuel : Nat} {path : List String} {name : String} {depth : Nat}
    {known known' : List (String × Nat)}
    (h : operatorDepthWithin g fuel path name known = .ok (depth, known')) :
    (name, depth) ∈ known' := by
  cases fuel with
  | zero => cases h
  | succ fuel =>
    rw [operatorDepthWithin_succ] at h
    split at h
    · rename_i hlookup
      obtain ⟨before, after, rfl, _⟩ := List.lookup_eq_some_iff.mp hlookup
      cases h
      simp
    · split at h
      · cases h
      · split at h
        · cases h
        · split at h
          · cases h
          · split at h
            · cases h
            · cases h
              exact List.mem_cons_self

theorem measures_operatorDepth (name : String) {known : List (String × Nat)}
    (hknown : g.Known known) : g.Measures (.operator name) (g.operatorDepth name known) :=
  measures_operatorDepthWithin List.nodup_nil (by simp) (by simp) (fun _ h ↦ by cases h) known
    hknown

theorem operatorDepth_isOk_iff (name : String) :
    (∃ result, g.operatorDepth name [] = .ok result) ↔
      ∃ n ≤ maxDepth, g.HasDepth (.operator name) n := by
  have hmeasures := measures_operatorDepth name (known_nil g)
  cases hres : g.operatorDepth name [] with
  | error fault =>
    rw [hres] at hmeasures
    simp only [reduceCtorEq, exists_false, false_iff, not_exists, not_and]
    exact hmeasures
  | ok result =>
    rw [hres] at hmeasures
    have hbound := hmeasures.2 _ (mem_of_operatorDepthWithin hres)
    exact iff_of_true ⟨result, rfl⟩ ⟨result.1, hbound.2, hmeasures.1⟩

/-! ## The search for an operator without a depth -/

theorem hasDepth_of_firstEndless_eq_none {ops : List (Operator Kind)} {known : List (String × Nat)}
    (hknown : g.Known known) (h : g.firstEndless ops known = none) :
    ∀ op ∈ ops, ∃ n ≤ maxDepth, g.HasDepth (.operator op.name) n := by
  induction ops generalizing known with
  | nil => simp
  | cons op ops ih =>
    have hmeasures := measures_operatorDepth op.name hknown
    rw [firstEndless] at h
    cases hres : g.operatorDepth op.name known with
    | error fault => simp [hres] at h
    | ok result =>
      simp only [hres] at h hmeasures
      intro other hother
      rcases List.mem_cons.mp hother with rfl | hother
      · have hbound := hmeasures.2 _ (mem_of_operatorDepthWithin hres)
        exact ⟨result.1, hbound.2, hmeasures.1⟩
      · exact ih hmeasures.2 h other hother

theorem not_hasDepth_of_firstEndless_eq_some {ops : List (Operator Kind)}
    {known : List (String × Nat)} {name : String} {fault : DepthFault} (hknown : g.Known known)
    (h : g.firstEndless ops known = some (name, fault)) :
    (∃ op ∈ ops, op.name = name) ∧ ∀ n ≤ maxDepth, ¬g.HasDepth (.operator name) n := by
  induction ops generalizing known with
  | nil => cases h
  | cons op ops ih =>
    have hmeasures := measures_operatorDepth op.name hknown
    rw [firstEndless] at h
    cases hres : g.operatorDepth op.name known with
    | error fault =>
      simp only [hres, Option.some.injEq, Prod.mk.injEq] at h hmeasures
      obtain ⟨rfl, rfl⟩ := h
      exact ⟨⟨op, List.mem_cons_self, rfl⟩, hmeasures⟩
    | ok result =>
      simp only [hres] at h hmeasures
      obtain ⟨⟨other, hother, hname⟩, hnone⟩ := ih hmeasures.2 h
      exact ⟨⟨other, List.mem_cons_of_mem _ hother, hname⟩, hnone⟩

end FormulaEdit.Grammar
