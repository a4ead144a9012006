import FormulaEdit.Grammar.Load
import FormulaEdit.Proofs.Build

/-!
# What an entry says

An entry is decoded field by field into an operator under construction. What it says can be told
without that: each part of the operator is given by a member of the entry, or by the item at its
place if the entry is an array (`Grammar.Describes`).

Storing a field leaves the others alone. So it is enough to know of each field what storing it makes
true, and that storing another one keeps it true (`Json.Record.Tracks`). Then the decoded record
says of a field what was given for it, in whichever order the fields came.
-/

namespace FormulaEdit

namespace Json

/-- What a value gives for a field of a record: the last member of its key, or the item at its
place. -/
def given? (key : String) (place : Nat) : Json → Option Json
  | .obj members => members.reverse.lookup key
  | .arr items => items[place]?
  | _ => none

/-- A text that may be left out or null. -/
inductive GivesText : Option Json → Option String → Prop
  | absent : GivesText none none
  | null : GivesText (some .null) none
  | text (value : String) : GivesText (some (.str value)) (some value)

theorem eq_str_of_string {value : Json} {text : String} (h : string value = .ok text) :
    value = .str text := by
  cases value with
  | str written =>
    cases h
    rfl
  | _ => cases h

theorem givesText_of_optional {value : Json} {text : Option String}
    (h : optional string value = .ok text) : GivesText (some value) text := by
  cases value with
  | null =>
    cases h
    exact .null
  | str written =>
    cases h
    exact .text written
  | _ => cases h

theorem eq_some_str {given : Option Json} {text : String} (hgiven : given.isSome = true)
    (h : ∀ value, given = some value → value = .str text) : given = some (.str text) := by
  obtain ⟨value, hvalue⟩ := Option.isSome_iff_exists.mp hgiven
  rw [hvalue, h value hvalue]

/-! ## Records -/

namespace Record

variable {σ : Type} {fields : List (Field σ)} {Tells : String → Option Json → σ → Prop} {s s' : σ}

/-- What a state says of a field comes about by storing the field, and stays when another one is
stored. -/
structure Tracks (fields : List (Field σ)) (Tells : String → Option Json → σ → Prop) : Prop where
  nodup : (fields.map (·.name)).Nodup
  stored : ∀ field ∈ fields, ∀ value s s', field.store value s = .ok s' →
    Tells field.name (some value) s'
  kept : ∀ field ∈ fields, ∀ value s s', field.store value s = .ok s' →
    ∀ key given, key ≠ field.name → Tells key given s → Tells key given s'

theorem Tracks.storeMembers (h : Tracks fields Tells) {key : String}
    (hkey : key ∈ fields.map (·.name)) {members : List (String × Json)} {given : Option Json}
    (hstore : storeMembers fields members s = .ok s') (htells : Tells key given s) :
    Tells key ((members.reverse.lookup key).or given) s' := by
  induction members generalizing s given with
  | nil =>
    cases hstore
    exact htells
  | cons member members ih =>
    obtain ⟨name, value⟩ := member
    have hother (hne : key ≠ name) : [(name, value)].lookup key = none := by
      rw [List.lookup_cons, beq_eq_false_iff_ne.mpr hne, List.lookup_nil]
    rw [List.reverse_cons, List.lookup_append, Option.or_assoc]
    rw [Record.storeMembers] at hstore
    cases hfield : fields.find? (·.name = name) with
    | none =>
      have hne : key ≠ name := by
        rintro rfl
        obtain ⟨field, hmem, hname⟩ := List.mem_map.mp hkey
        exact List.find?_eq_none.mp hfield field hmem (by simpa using hname)
      rw [hfield] at hstore
      rw [hother hne]
      exact ih hstore htells
    | some field =>
      have hmem := List.mem_of_find?_eq_some hfield
      obtain rfl : field.name = name := by simpa using List.find?_some hfield
      rw [hfield] at hstore
      dsimp only at hstore
      split at hstore
      · next stored hstored =>
        -- a member of this key takes the place of what was given before
        by_cases hname : key = field.name
        · subst hname
          rw [List.lookup_cons_self]
          exact ih hstore (h.stored field hmem value s stored hstored)
        · rw [hother hname]
          exact ih hstore (h.kept field hmem value s stored hstored key given hname htells)
      · cases hstore

section Items

variable {record : Record σ} {size : Nat} {rest : List (Field σ)} {items : List Json}

theorem Tracks.kept_storeItems (h : Tracks fields Tells) (hrest : rest ⊆ fields)
    (hstore : record.storeItems size rest items s = .ok s') {key : String} {given : Option Json}
    (hkey : key ∉ rest.map (·.name)) (htells : Tells key given s) : Tells key given s' := by
  induction rest generalizing items s with
  | nil =>
    cases items with
    | nil =>
      cases hstore
      exact htells
    | cons value items => cases hstore
  | cons field rest ih =>
    rw [List.map_cons, List.mem_cons, not_or] at hkey
    rw [List.cons_subset] at hrest
    cases items with
    | nil =>
      rw [Record.storeItems] at hstore
      split at hstore
      · exact ih hrest.2 hstore hkey.2 htells
      · cases hstore
    | cons value items =>
      rw [Record.storeItems] at hstore
      split at hstore
      · next stored hstored =>
        have htells' := h.kept field hrest.1 value s stored hstored key given hkey.1 htells
        exact ih hrest.2 hstore hkey.2 htells'
      · cases hstore

theorem Tracks.storeItems (h : Tracks fields Tells) (hrest : rest ⊆ fields)
    (hnodup : (rest.map (·.name)).Nodup) (hstore : record.storeItems size rest items s = .ok s')
    {place : Nat} {field : Field σ} (hfield : rest[place]? = some field)
    (htells : Tells field.name none s) :
    Tells field.name items[place]? s' ∧ (field.trailing = false → items[place]?.isSome = true) := by
  induction rest generalizing items s place with
  | nil => cases hfield
  | cons first rest ih =>
    rw [List.cons_subset] at hrest
    rw [List.map_cons, List.nodup_cons] at hnodup
    cases items with
    | nil =>
      rw [Record.storeItems] at hstore
      split at hstore
      · next htrailing =>
        cases place with
        | zero =>
          obtain rfl : first = field := by simpa using hfield
          refine ⟨h.kept_storeItems hrest.2 hstore hnodup.1 htells, fun hmust ↦ ?_⟩
          rw [hmust] at htrailing
          cases htrailing
        | succ place =>
          rw [List.getElem?_cons_succ] at hfield
          rw [List.getElem?_nil, ← List.getElem?_nil (i := place)]
          exact ih hrest.2 hnodup.2 hstore hfield htells
      · cases hstore
    | cons value items =>
      rw [Record.storeItems] at hstore
      split at hstore
      · next stored hstored =>
        cases place with
        | zero =>
          obtain rfl : first = field := by simpa using hfield
          have hnow := h.stored first hrest.1 value s stored hstored
          exact ⟨h.kept_storeItems hrest.2 hstore hnodup.1 hnow, fun _ ↦ rfl⟩
        | succ place =>
          rw [List.getElem?_cons_succ] at hfield
          have hne : field.name ≠ first.name := fun hname ↦
            hnodup.1 (hname ▸ List.mem_map_of_mem (List.mem_of_getElem? hfield))
          exact ih hrest.2 hnodup.2 hstore hfield
            (h.kept first hrest.1 value s stored hstored field.name none hne htells)
      · cases hstore

end Items

/-- **A decoded record says of each field what is given for it.** For a field that is not optional
something is given. -/
theorem Tracks.decode {record : Record σ} (h : Tracks record.fields Tells) {start : σ}
    {value : Json} (hdecode : record.decode start value = .ok s) {place : Nat} {field : Field σ}
    (hfield : record.fields[place]? = some field) (hstart : Tells field.name none start) :
    Tells field.name (value.given? field.name place) s ∧
      (field.required = true → field.trailing = false →
        (value.given? field.name place).isSome = true) := by
  have hmem : field ∈ record.fields := List.mem_of_getElem? hfield
  cases value with
  | obj members =>
    rw [Record.decode] at hdecode
    split at hdecode
    · cases hdecode
    · next stored hstored =>
      split at hdecode
      · cases hdecode
      · next hgiven =>
        cases hdecode
        have htells := h.storeMembers (List.mem_map_of_mem hmem) hstored hstart
        rw [Option.or_none] at htells
        refine ⟨htells, fun hrequired _ ↦ ?_⟩
        have hsome : (members.lookup field.name).isSome = true := by
          simpa [hrequired] using List.find?_eq_none.mp hgiven field hmem
        rw [List.lookup_isSome_iff] at hsome
        rw [given?, List.lookup_isSome_iff]
        simpa using hsome
  | arr items =>
    obtain ⟨htells, hgiven⟩ := h.storeItems (List.Subset.refl _) h.nodup hdecode hfield hstart
    exact ⟨htells, fun _ ↦ hgiven⟩
  | _ => cases hdecode

end Record

end Json

/-! ## Entries -/

namespace Grammar

open Json (GivesText)

/-- What a value says as an argument of an entry. -/
structure DescribesArgument (value : Json) (arg : Argument String) : Prop where
  name : value.given? "name" 0 = some (.str arg.name)
  kind : value.given? "kind" 1 = some (.str arg.kind)
  initial : GivesText (value.given? "default" 2) arg.initial

/-- What is given for the arguments of an entry, of which there are none if it is left out. -/
inductive GivesArguments : Option Json → List (Argument String) → Prop
  | absent : GivesArguments none []
  | list {values : List Json} {args : List (Argument String)}
      (h : List.Forall₂ DescribesArgument values args) : GivesArguments (some (.arr values)) args

/-- What an entry says: the name of an operator, its category, and its arguments in order, each with
its name, the text of its kind and its initial text. -/
structure Describes (entry : Json) (op : Declaration) : Prop where
  name : entry.given? "name" 0 = some (.str op.name)
  returns : GivesText (entry.given? "returns" 1) op.returns
  args : GivesArguments (entry.given? "args" 2) op.args

/-- What an argument says of a field. -/
def ArgumentTells (key : String) (given : Option Json) (arg : Argument String) : Prop :=
  (key = "name" → ∀ value, given = some value → value = .str arg.name) ∧
    (key = "kind" → ∀ value, given = some value → value = .str arg.kind) ∧
    (key = "default" → GivesText given arg.initial)

theorem argumentRecord_tracks : Json.Record.Tracks argumentRecord.fields ArgumentTells where
  nodup := by decide
  stored := by
    intro field hfield value arg arg' hstore
    rcases List.mem_cons.mp hfield with rfl | hfield
    · obtain ⟨name, hname, rfl⟩ := map_eq_ok hstore
      simp [ArgumentTells, Json.eq_str_of_string hname]
    rcases List.mem_cons.mp hfield with rfl | hfield
    · obtain ⟨kind, hkind, rfl⟩ := map_eq_ok hstore
      simp [ArgumentTells, Json.eq_str_of_string hkind]
    · obtain rfl := List.mem_singleton.mp hfield
      obtain ⟨initial, hinitial, rfl⟩ := map_eq_ok hstore
      simp [ArgumentTells, Json.givesText_of_optional hinitial]
  kept := by
    intro field hfield value arg arg' hstore key given hkey htells
    obtain ⟨hname, hkind, hinitial⟩ := htells
    rcases List.mem_cons.mp hfield with rfl | hfield
    · obtain ⟨name, _, rfl⟩ := map_eq_ok hstore
      exact ⟨fun h ↦ absurd h hkey, hkind, hinitial⟩
    rcases List.mem_cons.mp hfield with rfl | hfield
    · obtain ⟨kind, _, rfl⟩ := map_eq_ok hstore
      exact ⟨hname, fun h ↦ absurd h hkey, hinitial⟩
    · obtain rfl := List.mem_singleton.mp hfield
      obtain ⟨initial, _, rfl⟩ := map_eq_ok hstore
      exact ⟨hname, hkind, fun h ↦ absurd h hkey⟩

theorem describesArgument_of_decode {value : Json} {arg : Argument String}
    (h : argumentRecord.decode ⟨"", "", none⟩ value = .ok arg) : DescribesArgument value arg := by
  obtain ⟨hname, hnamed⟩ := argumentRecord_tracks.decode h
    (rfl : argumentRecord.fields[0]? = some _) (by simp [ArgumentTells])
  obtain ⟨hkind, hkinded⟩ := argumentRecord_tracks.decode h
    (rfl : argumentRecord.fields[1]? = some _) (by simp [ArgumentTells])
  obtain ⟨hinitial, _⟩ := argumentRecord_tracks.decode h
    (rfl : argumentRecord.fields[2]? = some _) (by simp [ArgumentTells, GivesText.absent])
  exact ⟨Json.eq_some_str (hnamed rfl rfl) (hname.1 rfl),
    Json.eq_some_str (hkinded rfl rfl) (hkind.2.1 rfl), hinitial.2.2 rfl⟩

def OperatorTells (key : String) (given : Option Json) (op : Declaration) : Prop :=
  (key = "name" → ∀ value, given = some value → value = .str op.name) ∧
    (key = "returns" → GivesText given op.returns) ∧
    (key = "args" → GivesArguments given op.args)

theorem givesArguments_of_list {value : Json} {args : List (Argument String)}
    (h : Json.list (argumentRecord.decode ⟨"", "", none⟩) value = .ok args) :
    GivesArguments (some value) args := by
  cases value with
  | arr values => exact .list ((mapM_eq_ok_iff.mp h).imp fun _ _ ↦ describesArgument_of_decode)
  | _ => cases h

theorem operatorRecord_tracks : Json.Record.Tracks operatorRecord.fields OperatorTells where
  nodup := by decide
  stored := by
    intro field hfield value op op' hstore
    rcases List.mem_cons.mp hfield with rfl | hfield
    · obtain ⟨name, hname, rfl⟩ := map_eq_ok hstore
      simp [OperatorTells, Json.eq_str_of_string hname]
    rcases List.mem_cons.mp hfield with rfl | hfield
    · obtain ⟨returns, hreturns, rfl⟩ := map_eq_ok hstore
      simp [OperatorTells, Json.givesText_of_optional hreturns]
    · obtain rfl := List.mem_singleton.mp hfield
      obtain ⟨args, hargs, rfl⟩ := map_eq_ok hstore
      simp [OperatorTells, givesArguments_of_list hargs]
  kept := by
    intro field hfield value op op' hstore key given hkey htells
    obtain ⟨hname, hreturns, hargs⟩ := htells
    rcases List.mem_cons.mp hfield with rfl | hfield
    · obtain ⟨name, _, rfl⟩ := map_eq_ok hstore
      exact ⟨fun h ↦ absurd h hkey, hreturns, hargs⟩
    rcases List.mem_cons.mp hfield with rfl | hfield
    · obtain ⟨returns, _, rfl⟩ := map_eq_ok hstore
      exact ⟨hname, fun h ↦ absurd h hkey, hargs⟩
    · obtain rfl := List.mem_singleton.mp hfield
      obtain ⟨args, _, rfl⟩ := map_eq_ok hstore
      exact ⟨hname, hreturns, fun h ↦ absurd h hkey⟩

theorem describes_of_decode {entry : Json} {op : Declaration}
    (h : operatorRecord.decode ⟨"", none, []⟩ entry = .ok op) : Describes entry op := by
  obtain ⟨hname, hnamed⟩ := operatorRecord_tracks.decode h
    (rfl : operatorRecord.fields[0]? = some _) (by simp [OperatorTells])
  obtain ⟨hreturns, _⟩ := operatorRecord_tracks.decode h
    (rfl : operatorRecord.fields[1]? = some _) (by simp [OperatorTells, GivesText.absent])
  obtain ⟨hargs, _⟩ := operatorRecord_tracks.decode h
    (rfl : operatorRecord.fields[2]? = some _) (by simp [OperatorTells, GivesArguments.absent])
  exact ⟨Json.eq_some_str (hnamed rfl rfl) (hname.1 rfl), hreturns.2.1 rfl, hargs.2.2 rfl⟩

end Grammar

end FormulaEdit
