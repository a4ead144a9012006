import FormulaEdit.Command.Host
import FormulaEdit.Text.Blank

/-!
# Files and folders

A store describes the files and folders of a computer. A path is walked from the root of the store,
one name at a time. `.` stands for the same folder, `..` for the one around it, and slashes may be
repeated. All names but the last one have to be those of folders. Names and paths have a largest
length, and none of them holds a null character.
-/

namespace FormulaEdit

/-- Files and folders. The root is always there. -/
structure Store where
  /-- The files with their texts. -/
  files : List (List String × String)
  /-- The folders that are there although they may hold no files. -/
  folders : List (List String)
  deriving DecidableEq, Repr

namespace Store

/-- The text of the file at a place. -/
def text? (store : Store) (place : List String) : Option String :=
  store.files.lookup place

/-- Whether there is a folder at a place. A place above a file or a folder is one. -/
def isFolder (store : Store) (place : List String) : Bool :=
  place.isEmpty || store.folders.any (place.isPrefixOf ·) ||
    store.files.any fun (file, _) ↦ place.length < file.length && place.isPrefixOf file

/-- Whether there is anything at a place. -/
def isThere (store : Store) (place : List String) : Bool :=
  store.isFolder place || (store.text? place).isSome

/-! ## Paths -/

/-- The largest number of bytes of a name. -/
def maxName : Nat := 255

/-- The largest number of bytes of a path. -/
def maxPath : Nat := 4095

/-- The names on a path. -/
def names (path : String) : List String :=
  (Text.pieces '/' path.toList).map String.ofList

/-- Whether a name stands for the folder that it is looked up in. -/
def isIdle (name : String) : Bool := name = "" || name = "."

/-- The names on a path that lead anywhere. -/
def steps (path : String) : List String := (names path).filter (!isIdle ·)

/-- The names on a path that a computer takes. -/
def checkedNames (path : String) : Except FileFault (List String) :=
  if path.toList.contains '\x00' then .error .nulInName
  else if maxPath < path.utf8ByteSize then .error .nameTooLong
  else .ok (names path)

/-- The names without those at the end that satisfy a condition. -/
def trimNames (p : String → Bool) (names : List String) : List String :=
  (names.reverse.dropWhile p).reverse

/-- The names on the path of the folder that the last step of a path is made in. -/
def parentNames (path : String) : List String :=
  trimNames isIdle (trimNames isIdle (names path)).dropLast

/-! ## Walks -/

/-- The place that a name in a folder stands for. -/
def placeIn (place : List String) (name : String) : Except FileFault (List String) :=
  if isIdle name then .ok place
  else if name = ".." then .ok place.dropLast
  else if maxName < name.utf8ByteSize then .error .nameTooLong
  else .ok (place ++ [name])

/-- The folder that a name in a folder stands for. -/
def enter (store : Store) (place : List String) (name : String) : Except FileFault (List String) :=
  match placeIn place name with
  | .error fault => .error fault
  | .ok inner =>
    if store.isFolder inner then .ok inner
    else .error (if (store.text? inner).isSome then .notFolder else .notFound)

/-- The folder that names lead to. -/
def walk (store : Store) : (place : List String) → List String → Except FileFault (List String)
  | place, [] => .ok place
  | place, name :: rest =>
    match store.enter place name with
    | .error fault => .error fault
    | .ok inner => store.walk inner rest

/-- The place that a path leads to. -/
def locate (store : Store) (path : String) : Except FileFault (List String) := do
  let names ← checkedNames path
  let folder ← store.walk [] names.dropLast
  placeIn folder (names.getLast?.getD "")

/-! ## Operations -/

/-- Whether there is anything at a path. -/
def pathExists (store : Store) (path : String) : Bool :=
  match store.locate path with
  | .ok place => store.isThere place
  | .error _ => false

/-- The text of the file at a path. -/
def textAt (store : Store) (path : String) : Except FileFault String := do
  let place ← store.locate path
  match store.text? place with
  | some text => .ok text
  | none => .error (if store.isFolder place then .isFolder else .notFound)

/-- Put a text into the file at a path. A path whose last name is followed by a slash, or stands for
a folder by itself, is one of a folder. -/
def putText (store : Store) (path text : String) : Except FileFault Store := do
  let names ← checkedNames path
  let named := trimNames (· = "") names
  let last := named.getLast?.getD ""
  let folder ← store.walk [] named.dropLast
  if named.length < names.length || isIdle last || last = ".." then .error .isFolder
  else
    let place ← placeIn folder last
    if store.isFolder place then .error .isFolder
    else .ok { store with files := (place, text) :: store.files.filter (·.1 != place) }

/-- Make the folders on a way that are missing. A file is in the way of a folder that is made, which
is the last one on the way or any after the first one that was missing. -/
def createFolders (store : Store) :
    (created : Bool) → (place : List String) → List String → Store × Except FileFault Unit
  | _, _, [] => (store, .ok ())
  | created, place, name :: rest =>
    match store.enter place name with
    | .ok inner => createFolders store created inner rest
    | .error .notFound =>
      let inner := place ++ [name]
      let folders := inner :: store.folders.filter (· != place)
      createFolders { store with folders } true inner rest
    | .error .notFolder =>
      (store, .error (if created || rest.isEmpty then .alreadyExists else .notFolder))
    | .error fault => (store, .error fault)

/-- Make the folder that a file is in, and those that it is in. -/
def createParents (store : Store) (path : String) : Store × Except FileFault Unit :=
  let way := parentNames path
  match checkedNames ("/".intercalate way) with
  | .error fault => (store, .error fault)
  | .ok _ => store.createFolders false [] (way.filter (!isIdle ·))

end Store

end FormulaEdit
