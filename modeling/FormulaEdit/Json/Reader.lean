import FormulaEdit.Json.Mismatch
import FormulaEdit.Json.Scan

/-!
# Reading JSON text

`Json.read` reads a whole text as one value. Arrays and objects may be nested 127 deep. The loops
over items and members are bounded by the length of the text, since each round takes at least a
character.

A text can also be read straight into a known type: `Scan.stringValue` and `Scan.natValue` take one
value and fail with a message about its type, and `Scan.record` and `Scan.tuple` hand the members of
an object and the items of an array to scans of their own. A member that is of no interest is passed
over by `Scan.skip`, which checks its syntax but not its depth.
-/

namespace FormulaEdit.Json

namespace Scan

/-! ## Arrays and objects -/

/-- Whether another item follows in an array, and go to where it starts. -/
def nextItem (first : Bool) : Scan Bool := do
  match ← nextToken with
  | none => failNext .endInList
  | some ']' => return false
  | some c =>
    if first then return true
    else if c = ',' then
      advance
      match ← nextToken with
      | some ']' => failNext .trailingComma
      | some _ => return true
      | none => failNext .endInValue
    else failNext .expectedListComma

/-- Whether another member follows in an object, and go to where its key starts. -/
def nextMember (first : Bool) : Scan Bool := do
  match ← nextToken with
  | none => failNext .endInObject
  | some '\x7d' => return false
  | some c =>
    if first then
      if c = '"' then return true else failNext .expectedKey
    else if c = ',' then
      advance
      match ← nextToken with
      | some '"' => return true
      | some '\x7d' => failNext .trailingComma
      | some _ => failNext .expectedKey
      | none => failNext .endInValue
    else failNext .expectedObjectComma

/-- Take the colon between a key and its value. -/
def colon : Scan Unit := do
  match ← nextToken with
  | some ':' => advance
  | some _ => failNext .expectedColon
  | none => failNext .endInObject

/-- The items of an array up to its closing bracket, each taken by `item`. -/
def items (item : Scan Json) : Nat → Bool → List Json → Scan (List Json)
  | 0, _, done => return done.reverse
  | fuel + 1, first, done => do
    if ← nextItem first then
      let value ← item
      items item fuel false (value :: done)
    else
      advance
      return done.reverse

/-- The members of an object up to its closing brace, each value taken by `item`. -/
def members (item : Scan Json) : Nat → Bool → List (String × Json) → Scan (List (String × Json))
  | 0, _, done => return done.reverse
  | fuel + 1, first, done => do
    if ← nextMember first then
      let key ← string
      colon
      let value ← item
      members item fuel false ((key, value) :: done)
    else
      advance
      return done.reverse

/-- Take one value with at most `depth` levels. -/
def value : Nat → Scan Json
  | 0 => failNext .tooDeep
  | depth + 1 => do
    match ← nextToken with
    | none => failNext .endInValue
    | some 'n' =>
      advance
      word ['u', 'l', 'l']
      return .null
    | some 't' =>
      advance
      word ['r', 'u', 'e']
      return .bool true
    | some 'f' =>
      advance
      word ['a', 'l', 's', 'e']
      return .bool false
    | some '-' =>
      advance
      number true
    | some '"' => return .str (← string)
    | some '[' =>
      if depth = 0 then failNext .tooDeep
      else
        advance
        let size := (← get).rest.length
        return .arr (← items (value depth) (size + 1) true [])
    | some '\x7b' =>
      if depth = 0 then failNext .tooDeep
      else
        advance
        let size := (← get).rest.length
        return ofMembers (← members (value depth) (size + 1) true [])
    | some c => if c.isDigit then number false else failNext .expectedValue

/-- The number of levels a value may have. -/
def maxDepth : Nat := 128

/-- Check that nothing but blanks is left. -/
def finish : Scan Unit := do
  match ← nextToken with
  | some _ => failNext .trailingCharacters
  | none => pure ()

/-- Run a scan over a whole text. -/
def run {α : Type} (scan : Scan α) (source : String) : Except Fault α :=
  match (do let a ← scan; finish; return a : Scan α) ⟨source.toList, 0⟩ with
  | .ok (a, _) => .ok a
  | .error fault => .error fault

/-! ## Values of a known type -/

/-- Fail because the next value is not of the expected type. A scalar is taken first. -/
def mistyped {α : Type} (expected : String) : Scan α := do
  match ← peek with
  | some '[' => fail (.mismatch (invalidType expected (.arr [])))
  | some '\x7b' => fail (.mismatch (invalidType expected (.obj [])))
  | _ =>
    let found ← value maxDepth
    fail (.mismatch (invalidType expected found))

/-- Take a string. -/
def stringValue : Scan String := do
  match ← nextToken with
  | none => failNext .endInValue
  | some '"' => string
  | some _ => mistyped "a string"

/-- Take a natural number that fits 64 bits. -/
def natValue : Scan Nat := do
  let take (neg : Bool) : Scan Nat := do
    match ← number neg with
    | .int (.ofNat n) => return n
    | .int n => fail (.mismatch (invalidValue "u64" (.int n)))
    | other => fail (.mismatch (invalidType "u64" other))
  match ← nextToken with
  | none => failNext .endInValue
  | some '-' =>
    advance
    take true
  | some c => if c.isDigit then take false else mistyped "u64"

/-! ## Passing over values -/

/-- Pass over a string whose opening quote is taken. An escape is not decoded. -/
def skipString : Nat → Scan Unit
  | 0 => fail .endInString
  | fuel + 1 => do
    match ← peek with
    | none => fail .endInString
    | some '"' => advance
    | some '\\' =>
      advance
      match ← peek with
      | none => fail .endInString
      | some 'u' =>
        advance
        let _ ← hexEscape
        skipString fuel
      | some c =>
        if (simpleEscape? c).isSome then
          advance
          skipString fuel
        else failNext .invalidEscape
    | some c =>
      if isPlain c then
        advance
        skipString fuel
      else fail .controlCharacter

/-- Pass over digits, at least one, or fail at `failure`. -/
def skipDigits (failure : Scan Unit) : Scan Unit := do
  let digits ← takeRun Char.isDigit
  if digits.isEmpty then failure

/-- Pass over the exponent of a number, if it has one. -/
def skipExponent : Scan Unit := do
  match ← peek with
  | some 'e' | some 'E' =>
    advance
    let sign ← peek
    if sign = some '+' || sign = some '-' then advance
    skipDigits (failNext .invalidNumber)
  | _ => pure ()

/-- Pass over a number after its sign. -/
def skipNumber : Scan Unit := do
  match ← peek with
  | some '0' =>
    advance
    match ← peek with
    | some d => if d.isDigit then failNext .invalidNumber
    | none => pure ()
  | _ => skipDigits (failNext .invalidNumber)
  match ← peek with
  | some '.' =>
    advance
    skipDigits (failNext .invalidNumber)
    skipExponent
  | _ => skipExponent

/-- Pass over a value that is no array and no object. -/
def skipScalar : Scan Unit := do
  match ← nextToken with
  | none => failNext .endInValue
  | some 'n' =>
    advance
    word ['u', 'l', 'l']
  | some 't' =>
    advance
    word ['r', 'u', 'e']
  | some 'f' =>
    advance
    word ['a', 'l', 's', 'e']
  | some '-' =>
    advance
    skipNumber
  | some '"' =>
    advance
    skipString ((← get).rest.length + 1)
  | some c => if c.isDigit then skipNumber else failNext .expectedValue

/-- Pass over the key of a member and its colon. -/
def skipKey : Scan Unit := do
  match ← nextToken with
  | some '"' =>
    advance
    skipString ((← get).rest.length + 1)
    colon
  | some _ => failNext .expectedKey
  | none => failNext .endInObject

/-- Close brackets after a value, or after an opening bracket when `fresh`. The answer holds the
brackets that stay open, innermost first. -/
def closeBrackets : Nat → Bool → List Char → Scan (List Char)
  | 0, _, frames => return frames
  | _ + 1, _, [] => return []
  | fuel + 1, fresh, frame :: outer => do
    match ← nextToken with
    | none => failNext (if frame = '[' then .endInList else .endInObject)
    | some c =>
      if c = ',' && !fresh then
        advance
        return frame :: outer
      else if (c = ']' && frame = '[') || (c = '\x7d' && frame = '\x7b') then
        advance
        closeBrackets fuel false outer
      else if fresh then return frame :: outer
      else failNext (if frame = '[' then .expectedListComma else .expectedObjectComma)

/-- Pass over values inside the given open brackets until all are closed. -/
def skipIn : Nat → List Char → Scan Unit
  | 0, _ => pure ()
  | fuel + 1, frames => do
    let next ← nextToken
    let frames ←
      if next = some '[' || next = some '\x7b' then do
        advance
        closeBrackets (fuel + 1) true (next.getD '[' :: frames)
      else do
        skipScalar
        closeBrackets (fuel + 1) false frames
    match frames with
    | [] => pure ()
    | frame :: _ =>
      if frame = '\x7b' then skipKey
      skipIn fuel frames

/-- Pass over one value, whatever its depth. -/
def skip : Scan Unit := do
  skipIn ((← get).rest.length + 1) []

/-! ## Records -/

/-- Take the members of an object up to its closing brace. The scan `member` takes what follows a
key and changes the state. -/
def memberLoop {σ : Type} (member : String → σ → Scan σ) : Nat → Bool → σ → Scan σ
  | 0, _, state => return state
  | fuel + 1, first, state => do
    if ← nextMember first then
      let key ← string
      let state ← member key state
      memberLoop member fuel false state
    else
      advance
      return state

/-- Take the items of an array by the given scans, of which the later ones may go without an
item. -/
def itemLoop {σ : Type} : List (σ → Scan σ) → Bool → σ → Scan σ
  | [], first, state => do
    match ← nextToken with
    | some ']' => advance
    | some ',' =>
      if first then failNext .trailingCharacters
      else
        advance
        match ← nextToken with
        | some ']' => failNext .trailingComma
        | _ => failNext .trailingCharacters
    | some _ => failNext .trailingCharacters
    | none => failNext .endInList
    return state
  | field :: fields, first, state => do
    if ← nextItem first then
      let state ← field state
      itemLoop fields false state
    else
      advance
      return state

/-- Take a record, which is an object whose members `member` takes, or an array whose items `fields`
take in turn. -/
def record {σ : Type} (title : String) (member : String → σ → Scan σ)
    (fields : List (σ → Scan σ)) (start : σ) : Scan σ := do
  match ← nextToken with
  | none => failNext .endInValue
  | some '[' =>
    advance
    itemLoop fields true start
  | some '\x7b' =>
    advance
    memberLoop member ((← get).rest.length + 1) true start
  | some _ => mistyped title

end Scan

/-- Read a whole text as one value with fewer than `depth` levels of arrays and objects. -/
def readWithin (depth : Nat) (source : String) : Except Fault Json :=
  (Scan.value depth).run source

/-- Read a whole text as one value. -/
def read (source : String) : Except Fault Json :=
  readWithin Scan.maxDepth source

/-- Read a whole text as one string. -/
def readString (source : String) : Except Fault String :=
  Scan.stringValue.run source

end FormulaEdit.Json
