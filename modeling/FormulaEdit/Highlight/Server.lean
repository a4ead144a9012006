import FormulaEdit.Json.Scan
import FormulaEdit.Number.Bounded
import FormulaEdit.Text.Blank

/-!
# Servers in addresses

The part of an address up to its path names a server: a login that ends with an at sign, a name, and
a colon with a number, of which only the name is needed. A name is an address in brackets, four
numbers with dots between them in one of several spellings, or words with dots between them.
`isServer` says whether a text names a server.
-/

namespace FormulaEdit.Highlight

open Json Number

/-! ## Numbers for names -/

/-- The value of digits in a base, if all of them are digits. -/
def baseValue? (base : Nat) (cs : List Char) : Option Nat :=
  cs.foldlM (fun n c ↦ ((Scan.hexDigit? c).filter (· < base)).map (base * n + ·)) 0

/-- A number in an address. A zero in front stands for base eight, a zero and an `x` for base
sixteen. -/
def addressNumber? : List Char → Option Nat
  | [] => none
  | '0' :: 'x' :: digits => baseValue? 16 digits
  | '0' :: 'X' :: digits => baseValue? 16 digits
  | '0' :: c :: digits => baseValue? 8 (c :: digits)
  | cs => baseValue? 10 cs

/-- The parts of a name between its dots. A dot at the end does not count. -/
def nameParts (name : List Char) : List (List Char) :=
  let parts := Text.pieces '.' name
  if parts.getLast? = some [] then parts.dropLast else parts

/-- Whether a name is meant as numbers, which shows at its last part. -/
def endsInNumber (name : List Char) : Bool :=
  match (nameParts name).getLast? with
  | some part => (!part.isEmpty && part.all Char.isDigit) || (addressNumber? part).isSome
  | none => false

/-- Whether a name is at most four numbers of which the last one fills what the others leave of four
bytes. -/
def isNumeric (name : List Char) : Bool :=
  let parts := nameParts name
  match (parts.mapM addressNumber?).map List.reverse with
  | some (last :: others) =>
    others.length < 4 && others.all (· < 256) && last < Nat.pow 256 (4 - others.length)
  | _ => false

/-- Whether a text is four numbers of one byte in plain decimal. -/
def isDotted (cs : List Char) : Bool :=
  let parts := Text.pieces '.' cs
  let isByte (part : List Char) : Bool :=
    (readDigits? part).any (· < 256) && (part.length = 1 || part.head? != some '0')
  parts.length = 4 && parts.all isByte

/-- Whether a text goes on a bracketed address with so many groups so far and perhaps a gap. Each
round takes at least one character. -/
def groupsFollow : Nat → (count : Nat) → (gap : Bool) → List Char → Bool
  | 0, _, _, _ => false
  | _ + 1, count, gap, [] => gap || count = 8
  | fuel + 1, count, gap, c :: rest =>
    if 8 ≤ count then false
    else if c = ':' then !gap && groupsFollow fuel (count + 1) true rest
    else
      let digits := ((c :: rest).take 4).takeWhile fun d ↦ (Scan.hexDigit? d).isSome
      match (c :: rest).drop digits.length with
      | [] => gap || count = 7
      | '.' :: _ =>
        !digits.isEmpty && count ≤ 6 && isDotted (c :: rest) && (gap || count = 6)
      | ':' :: after => !after.isEmpty && groupsFollow fuel (count + 1) gap after
      | _ => false

/-- Whether a text is an address of eight groups of hexadecimal digits, with at most one gap for
groups of zeros. The last two groups may be dotted numbers. -/
def isGrouped (cs : List Char) : Bool :=
  match cs with
  | ':' :: ':' :: rest => groupsFollow (rest.length + 1) 1 true rest
  | ':' :: _ => false
  | _ => groupsFollow (cs.length + 1) 0 false cs

/-! ## Names -/

/-- The bytes of a text whose percent signs stand for bytes by their codes. -/
def decodedBytes : List UInt8 → List UInt8
  | 37 :: high :: low :: rest =>
    match Scan.hexDigit? (Char.ofNat high.toNat), Scan.hexDigit? (Char.ofNat low.toNat) with
    | some h, some l => UInt8.ofNat (16 * h + l) :: decodedBytes rest
    | _, _ => 37 :: decodedBytes (high :: low :: rest)
  | byte :: rest => byte :: decodedBytes rest
  | [] => []

/-- A character in its plain form. Wide forms stand for the characters of ASCII. -/
def plainForm (c : Char) : Char :=
  if c.toNat = 0x3002 || c.toNat = 0xFF61 then '.'
  else if 0xFF01 ≤ c.toNat && c.toNat ≤ 0xFF5E then Char.ofNat (c.toNat - 0xFEE0)
  else c

/-- Whether a character does not count in a name, such as a soft hyphen. -/
def isIdle (c : Char) : Bool :=
  [0xAD, 0x34F, 0x200B, 0x2060, 0x2064, 0xFEFF].contains c.toNat ||
    (0x180B ≤ c.toNat && c.toNat ≤ 0x180F) || (0xFE00 ≤ c.toNat && c.toNat ≤ 0xFE0F)

/-- Whether a character is for private use or for the direction and joining of others. -/
def isSpecialUse (c : Char) : Bool :=
  let n := c.toNat
  (0x200C ≤ n && n ≤ 0x200F) || (0x202A ≤ n && n ≤ 0x202E) || (0x2066 ≤ n && n ≤ 0x2069) ||
    (0xE000 ≤ n && n ≤ 0xF8FF) || (0xFFF9 ≤ n && n ≤ 0xFFFF) || 0xE0000 ≤ n

/-- Whether a character may not occur in a name. -/
def isBarred (c : Char) : Bool :=
  c < ' ' || (0x7F ≤ c.toNat && c.toNat < 0xA0) || Text.isBlank c || isSpecialUse c ||
    "\"#%/:<>?@[\\]^\x60\x7b|\x7d".toList.contains c

/-- Whether a text is the name of a server. -/
def isServerName (cs : List Char) : Bool :=
  match cs with
  | '[' :: rest => rest.getLast? = some ']' && isGrouped rest.dropLast
  | _ =>
    match String.fromUTF8? ⟨(decodedBytes (String.ofList cs).toUTF8.toList).toArray⟩ with
    | none => false
    | some decoded =>
      let name := (decoded.toList.filter (!isIdle ·)).map plainForm
      !name.isEmpty && !name.any isBarred && (!endsInNumber name || isNumeric name)

/-! ## Servers -/

/-- A name and the colon with a number after it, if there is one. A colon in brackets belongs to the
name. -/
def splitNumber : (inBrackets : Bool) → List Char → List Char × List Char
  | _, [] => ([], [])
  | inBrackets, c :: rest =>
    if c = ':' && !inBrackets then ([], c :: rest)
    else
      let (name, number) := splitNumber (c = '[' || (inBrackets && c != ']')) rest
      (c :: name, number)

/-- Whether a text is nothing or a colon with a number of two bytes, which may be left out. -/
def isServerNumber : List Char → Bool
  | ':' :: digits => digits.all Char.isDigit && digitsValue digits < Nat.pow 2 16
  | cs => cs.isEmpty

/-- Whether a text names a server. -/
def isServer (cs : List Char) : Bool :=
  let (name, number) := splitNumber false (cs.reverse.takeWhile (· != '@')).reverse
  isServerName name && isServerNumber number

end FormulaEdit.Highlight
