import FormulaEdit.Highlight.Basic
import FormulaEdit.Highlight.Server

/-!
# Requests

A request is sent to the server that an address names, and names the part of the address that comes
after the server. Before it is sent, an address is brought into a regular form: tabs and line ends
are dropped, a backslash counts as a slash, segments that stand for the same or the outer folder are
resolved, characters that may not occur are written as the codes of their bytes, and what follows a
number sign is left out. An address that names no server, or one that is too long, gets no request.
-/

namespace FormulaEdit.Highlight

/-- A hexadecimal digit. -/
def hexDigit (n : Nat) : Char :=
  if n < 10 then Char.ofNat (48 + n) else Char.ofNat (55 + n)

/-- A character as the codes of its bytes. -/
def byteCodes (c : Char) : List Char :=
  (String.singleton c).toUTF8.toList.flatMap fun byte ↦
    ['%', hexDigit (byte.toNat / 16), hexDigit (byte.toNat % 16)]

/-- A text with some characters written as the codes of their bytes. So are control characters and
all characters that are not ASCII. -/
def encoded (special : List Char) (cs : List Char) : List Char :=
  cs.flatMap fun c ↦
    if c < ' ' || '~' < c || special.contains c then byteCodes c else [c]

/-- The characters that may not occur in a path. -/
def pathSpecials : List Char := [' ', '"', '#', '<', '>', '?', '\x60', '\x7b', '\x7d']

/-- The characters that may not occur in a query. -/
def querySpecials : List Char := [' ', '"', '#', '<', '>', '\'']

/-- The characters that may not occur after a number sign. -/
def fragmentSpecials : List Char := [' ', '"', '<', '>', '\x60']

/-- A segment with coded dots written out, to see what it stands for. -/
def plainDots : List Char → List Char
  | '%' :: '2' :: 'e' :: rest => '.' :: plainDots rest
  | '%' :: '2' :: 'E' :: rest => '.' :: plainDots rest
  | c :: rest => c :: plainDots rest
  | [] => []

/-- Whether a segment names a drive. There is no folder around a drive. -/
def isDrive : List Char → Bool
  | [letter, mark] => letter.isAlpha && (mark = ':' || mark = '|')
  | _ => false

/-- The segments without the last one, given last one first. -/
def outerSegments (taken : List (List Char)) : List (List Char) :=
  if taken.head?.any isDrive then taken else taken.drop 1

/-- Resolve the segments of a path. Those taken so far are given last one first. -/
def resolveSegments : (taken : List (List Char)) → List (List Char) → List (List Char)
  | taken, [] => taken.reverse
  | taken, segment :: rest =>
    if plainDots segment = ['.'] then
      resolveSegments (if rest.isEmpty then [] :: taken else taken) rest
    else if plainDots segment = ['.', '.'] then
      let outer := outerSegments taken
      resolveSegments (if rest.isEmpty then [] :: outer else outer) rest
    else resolveSegments (encoded pathSpecials segment :: taken) rest

/-- The path of an address in regular form. An address without a path asks for the root. -/
def regularPath (path : List Char) : List Char :=
  let slashed := path.map fun c ↦ if c = '\\' then '/' else c
  let segments :=
    match Text.pieces '/' slashed with
    | [] | [_] => [[]]
    | _ :: segments => segments
  (resolveSegments [] segments).flatMap ('/' :: ·)

/-- The server of an address, its path and query in regular form, and what follows them. -/
structure Address where
  /-- The text that names the server. -/
  server : List Char
  /-- What the server is asked for. -/
  target : List Char
  /-- A number sign and what follows it, if there is one. -/
  fragment : List Char

/-- The parts of an address. -/
def Address.ofText (text : String) : Address :=
  let cs := text.toList.filter fun c ↦ c != '\t' && c != '\n' && c != '\r'
  let isEnd (c : Char) : Bool := c = '/' || c = '\\' || c = '?' || c = '#'
  let whole := cs.takeWhile (· != '#')
  let location := whole.dropWhile (!isEnd ·)
  let query :=
    match location.dropWhile (· != '?') with
    | [] => []
    | mark :: rest => mark :: encoded querySpecials rest
  { server := cs.takeWhile (!isEnd ·)
    target := regularPath (location.takeWhile (· != '?')) ++ query
    fragment := encoded fragmentSpecials (cs.dropWhile (· != '#')) }

/-- The largest number of characters of an address. -/
def maxAddress : Nat := Nat.pow 2 16 - 2

/-- The first line of the request to the service below a path on a server, if the two make an
address. -/
def requestLine? (server basePath : String) : Option String :=
  let address := Address.ofText (endpoint (server ++ basePath))
  let length := "http://".length + address.server.length + address.target.length +
    address.fragment.length
  if isServer address.server && length ≤ maxAddress then
    some ("POST " ++ String.ofList address.target ++ " HTTP/1.1")
  else none

/-- The body of an answer. Answers of some statuses have none. -/
def bodyOf (status : Nat) (body : String) : String :=
  if status = 204 || status = 304 then "" else body

/-- Whether a status ends an exchange. A status has three digits, and one below two hundred says
that another answer follows, unless the connection serves something else from then on. -/
def isFinal (status : Nat) : Bool := status = 101 || (200 ≤ status && status ≤ 999)

/-- What comes of a request, given the status of the answer and its body. Status zero stands for no
answer, and then a cause is named. -/
def exchange (status : Nat) (body cause : String) : Highlighting :=
  if isFinal status then .ofAnswer status (bodyOf status body) else .error (.transport cause)

/-- The first line of a request, if one is sent, and what comes of it. -/
def ask (server basePath : String) (status : Nat) (body cause : String) :
    Option String × Highlighting :=
  match requestLine? server basePath with
  | some line => (some line, exchange status body cause)
  | none => (none, .error (.transport cause))

end FormulaEdit.Highlight
