import FormulaEdit.Json.Basic
import FormulaEdit.Number.Bounded

/-!
# Scanning JSON text

A scan takes the text it recognises off the front of its input and counts the bytes it has passed.
It fails with a cause and with the byte offset the failure is reported at: right after what has been
taken (`fail`), or one byte further, at the character that does not fit (`failNext`).

The scans below take the tokens of the format: blanks, literal words, strings and numbers. What they
accept and where they fail is fixed by the format's reader, not by its grammar alone. A number with
more digits than 64 bits hold keeps the leading ones and scales by a power of ten.
-/

namespace FormulaEdit.Json

open Number

/-! ## Failures -/

/-- Why a text is not what is expected. -/
inductive Cause where
  | endInValue
  | endInObject
  | endInList
  | endInString
  | expectedValue
  | expectedIdent
  | expectedColon
  | expectedListComma
  | expectedObjectComma
  | expectedKey
  | trailingComma
  | trailingCharacters
  | invalidEscape
  | invalidNumber
  | numberOutOfRange
  | loneSurrogate
  | endInHexEscape
  | controlCharacter
  | tooDeep
  | mismatch (message : String)
  deriving DecidableEq, Repr

/-- The wording of a cause. -/
def Cause.message : Cause → String
  | endInValue => "EOF while parsing a value"
  | endInObject => "EOF while parsing an object"
  | endInList => "EOF while parsing a list"
  | endInString => "EOF while parsing a string"
  | expectedValue => "expected value"
  | expectedIdent => "expected ident"
  | expectedColon => "expected `:`"
  | expectedListComma => "expected `,` or `]`"
  | expectedObjectComma => "expected `,` or `\x7d`"
  | expectedKey => "key must be a string"
  | trailingComma => "trailing comma"
  | trailingCharacters => "trailing characters"
  | invalidEscape => "invalid escape"
  | invalidNumber => "invalid number"
  | numberOutOfRange => "number out of range"
  | loneSurrogate => "lone leading surrogate in hex escape"
  | endInHexEscape => "unexpected end of hex escape"
  | controlCharacter => "control character (\\u0000-\\u001F) found while parsing a string"
  | tooDeep => "recursion limit exceeded"
  | mismatch message => message

/-- A cause and the byte offset it is reported at. -/
structure Fault where
  /-- What went wrong. -/
  cause : Cause
  /-- The number of bytes before the place of the fault. -/
  offset : Nat
  deriving DecidableEq, Repr

/-- The line and the column of a byte offset, lines from one and columns in bytes. -/
def position (source : String) (offset : Nat) : Nat × Nat :=
  let (_, line, start) := source.toList.foldl
    (fun (at_, line, start) c ↦
      if c = '\n' && at_ < offset then (at_ + 1, line + 1, at_ + 1)
      else (at_ + c.utf8Size, line, start))
    (0, 1, 0)
  (line, offset - start)

/-- The wording of a fault in a text. -/
def Fault.message (source : String) (fault : Fault) : String :=
  let (line, column) := position source fault.offset
  fault.cause.message ++ s!" at line {line} column {column}"

/-! ## Scans -/

/-- The text still to be scanned and the number of bytes before it. -/
structure Input where
  /-- What has not been taken. -/
  rest : List Char
  /-- The number of bytes taken. -/
  offset : Nat

/-- A scan takes text off its input or fails. -/
abbrev Scan := StateT Input (Except Fault)

namespace Scan

/-- Fail right after what has been taken. -/
def fail {α : Type} (cause : Cause) : Scan α :=
  fun input ↦ .error ⟨cause, input.offset⟩

/-- Fail at the next character, or at the end of the text. -/
def failNext {α : Type} (cause : Cause) : Scan α :=
  fun input ↦ .error ⟨cause, if input.rest.isEmpty then input.offset else input.offset + 1⟩

/-- The next character. -/
def peek : Scan (Option Char) :=
  fun input ↦ .ok (input.rest.head?, input)

/-- Take one character. -/
def advance : Scan Unit :=
  fun input ↦
    match input.rest with
    | [] => .ok ((), input)
    | c :: rest => .ok ((), ⟨rest, input.offset + c.utf8Size⟩)

/-- Take the longest run of ASCII characters of a class. -/
def takeRun (p : Char → Bool) : Scan (List Char) :=
  fun input ↦
    let run := input.rest.takeWhile p
    .ok (run, ⟨input.rest.dropWhile p, input.offset + run.length⟩)

/-- Take blanks, of which the format has four, and look at what follows. -/
def nextToken : Scan (Option Char) := do
  let _ ← takeRun fun c ↦ c == ' ' || c == '\n' || c == '\t' || c == '\r'
  peek

/-- Take the rest of a literal word. -/
def word : List Char → Scan Unit
  | [] => pure ()
  | c :: cs => do
    match ← peek with
    | none => fail .endInValue
    | some d =>
      if c = d then
        advance
        word cs
      else failNext .expectedIdent

/-! ## Strings -/

/-- The value of a hexadecimal digit. -/
def hexDigit? (c : Char) : Option Nat :=
  if c.isDigit then some (c.toNat - '0'.toNat)
  else if 'a' ≤ c && c ≤ 'f' then some (c.toNat - 'a'.toNat + 10)
  else if 'A' ≤ c && c ≤ 'F' then some (c.toNat - 'A'.toNat + 10)
  else none

/-- Take the four bytes of a hexadecimal escape. -/
def hexEscape : Scan Nat :=
  fun input ↦
    let bytes := (input.rest.take 4).foldl (fun n c ↦ n + c.utf8Size) 0
    if bytes < 4 then .error ⟨.endInString, input.offset + bytes⟩
    else
      match input.rest with
      | a :: b :: c :: d :: rest =>
        match hexDigit? a, hexDigit? b, hexDigit? c, hexDigit? d with
        | some a, some b, some c, some d =>
          .ok (((a * 16 + b) * 16 + c) * 16 + d, ⟨rest, input.offset + 4⟩)
        | _, _, _, _ => .error ⟨.invalidEscape, input.offset + 4⟩
      | _ => .error ⟨.invalidEscape, input.offset + 4⟩

/-- Take one character that has to follow in an escape, or fail once it is passed. -/
def escapeMark (mark : Char) : Scan Unit := do
  match ← peek with
  | none => fail .endInString
  | some c => if c = mark then advance else failNext .endInHexEscape

/-- Take the digits of a character given by its code, in two halves above `U+FFFF`. -/
def unicodeEscape : Scan Char := do
  let high ← hexEscape
  if 0xDC00 ≤ high && high ≤ 0xDFFF then fail .loneSurrogate
  else if high < 0xD800 || 0xDBFF < high then return Char.ofNat high
  else
    escapeMark '\\'
    escapeMark 'u'
    let low ← hexEscape
    if low < 0xDC00 || 0xDFFF < low then fail .loneSurrogate
    else return Char.ofNat ((high - 0xD800) * 0x400 + (low - 0xDC00) + 0x10000)

/-- The character a one-letter escape stands for. -/
def simpleEscape? : Char → Option Char
  | '"' => some '"'
  | '\\' => some '\\'
  | '/' => some '/'
  | 'b' => some '\x08'
  | 'f' => some '\x0c'
  | 'n' => some '\n'
  | 'r' => some '\r'
  | 't' => some '\t'
  | _ => none

/-- Take what follows a backslash. -/
def escape : Scan Char := do
  match ← peek with
  | none => fail .endInString
  | some 'u' =>
    advance
    unicodeEscape
  | some c =>
    match simpleEscape? c with
    | some d =>
      advance
      return d
    | none => failNext .invalidEscape

/-- Whether a character stands for itself in a string. -/
def isPlain (c : Char) : Bool := c != '"' && c != '\\' && ' ' ≤ c

/-- Take a string up to its closing quote. Each round takes at least one character. -/
def stringBody : Nat → List Char → Scan String
  | 0, _ => fail .endInString
  | fuel + 1, done => do
    match ← peek with
    | none => fail .endInString
    | some '"' =>
      advance
      return String.ofList done.reverse
    | some '\\' =>
      advance
      let c ← escape
      stringBody fuel (c :: done)
    | some c =>
      advance
      if isPlain c then stringBody fuel (c :: done) else fail .controlCharacter

/-- Take a string whose opening quote is next. -/
def string : Scan String := do
  advance
  let input ← get
  stringBody (input.rest.length + 1) []

/-! ## Numbers -/

/-- Append digits to a significand as long as it fits 64 bits; also the digits left over. -/
def fitDigits : Nat → List Char → Nat × List Char
  | significand, [] => (significand, [])
  | significand, c :: cs =>
    let next := significand * 10 + digitValue c
    if Nat.pow 2 64 ≤ next then (significand, c :: cs) else fitDigits next cs

/-- The largest power of ten that the format holds. -/
def maxPower : Nat := 308

/-- Divide by a power of ten, in steps that the format holds. -/
def scaleDown : Nat → Binary64 → Nat → Option Binary64
  | 0, x, n => x.scaleDown? n
  | steps + 1, x, n =>
    if n ≤ maxPower then x.scaleDown? n
    else if x.isZero then some x
    else
      match x.scaleDown? maxPower with
      | some y => scaleDown steps y (n - maxPower)
      | none => none

/-- The number `significand * 10 ^ exponent`. -/
def ofParts (neg : Bool) (significand : Nat) (exponent : Int) : Scan Json :=
  let result := do
    let x ← Binary64.ofRatio? neg significand 1
    if exponent < 0 then scaleDown (exponent.natAbs / maxPower) x exponent.natAbs
    else if x.isZero then some x
    else if maxPower < exponent then none
    else x.scaleUp? exponent.natAbs
  match result with
  | some x => return .float x
  | none => fail .numberOutOfRange

/-- The largest exponent that is told apart from a larger one. -/
def maxExponent : Nat := Nat.pow 2 31 - 1

/-- Take the digits of an exponent, its value so far given. A larger one than any number needs makes
the number a zero or puts it out of range. -/
def exponentDigits (neg zero up : Bool) : Nat → Nat → Scan (Option Nat)
  | 0, n => return some n
  | fuel + 1, n => do
    match ← peek with
    | some c =>
      if c.isDigit then
        advance
        let next := n * 10 + digitValue c
        if next ≤ maxExponent then exponentDigits neg zero up fuel next
        else if !zero && up then fail .numberOutOfRange
        else
          let _ ← takeRun Char.isDigit
          return none
      else return some n
    | none => return some n

/-- Take the exponent of a number, whose mark is next. -/
def exponent (neg : Bool) (significand : Nat) (scale : Int) : Scan Json := do
  advance
  let sign ← peek
  if sign = some '+' || sign = some '-' then advance
  let up := sign != some '-'
  match ← peek with
  | none => fail .endInValue
  | some c =>
    if !c.isDigit then failNext .invalidNumber
    else
      let input ← get
      match ← exponentDigits neg (significand == 0) up input.rest.length 0 with
      | none => return .float ⟨neg, 0, -1074⟩
      | some n => ofParts neg significand (if up then scale + n else scale - n)

/-- Take the end of a number: an exponent or nothing. -/
def numberEnd (neg : Bool) (significand : Nat) (scale : Int) : Scan Json := do
  match ← peek with
  | some 'e' | some 'E' => exponent neg significand scale
  | _ => ofParts neg significand scale

/-- Take the fraction of a number, whose point is next. -/
def fraction (neg : Bool) (significand : Nat) (scale : Int) : Scan Json := do
  advance
  let digits ← takeRun Char.isDigit
  if digits.isEmpty then
    match ← peek with
    | some _ => failNext .invalidNumber
    | none => failNext .endInValue
  else
    let (significand, left) := fitDigits significand digits
    numberEnd neg significand (scale - (digits.length - left.length))

/-- An integer, or the number nearest to it where 64 bits do not hold it. Minus zero is no
integer. -/
def ofInteger (neg : Bool) (n : Nat) : Json :=
  if !neg then .int n
  else if n = 0 || Nat.pow 2 63 < n then
    match Binary64.ofRatio? true n 1 with
    | some x => .float x
    | none => .null
  else .int (-(n : Int))

/-- Take a number after its sign. -/
def number (neg : Bool) : Scan Json := do
  match ← peek with
  | none => fail .endInValue
  | some c =>
    if !c.isDigit then failNext .invalidNumber
    else
      let digits ←
        if c = '0' then do
          advance
          match ← peek with
          | some d => if d.isDigit then failNext .invalidNumber else pure ['0']
          | none => pure ['0']
        else takeRun Char.isDigit
      let (significand, left) := fitDigits 0 digits
      match ← peek with
      | some '.' => fraction neg significand left.length
      | some 'e' | some 'E' => exponent neg significand left.length
      | _ =>
        if left.isEmpty then return ofInteger neg significand
        else ofParts neg significand left.length

end Scan

end FormulaEdit.Json
