/-!
# What a command needs

Commands read and write files, print lines and take typed lines. They are written against `Host`, so
that they run on a computer and also on a description of one.
-/

namespace FormulaEdit

/-- Why a file cannot be read or written. -/
inductive FileFault where
  | notFound
  | alreadyExists
  | notFolder
  | isFolder
  | nameTooLong
  | nulInName
  /-- Any other reason, in words. -/
  | other (message : String)
  deriving DecidableEq, Repr

/-- The wording of a fault. -/
def FileFault.message : FileFault → String
  | .notFound => "No such file or directory (os error 2)"
  | .alreadyExists => "File exists (os error 17)"
  | .notFolder => "Not a directory (os error 20)"
  | .isFolder => "Is a directory (os error 21)"
  | .nameTooLong => "File name too long (os error 36)"
  | .nulInName => "file name contained an unexpected NUL byte"
  | .other message => message

/-- What a command can do to the world. -/
class Host (m : Type → Type) where
  /-- Whether there is a file or a folder at a path. -/
  pathExists : String → m Bool
  /-- The text of a file. -/
  readFile : String → m (Except FileFault String)
  /-- Make the folder that a file is in, and the folders that it is in. -/
  createParents : String → m (Except FileFault Unit)
  /-- Put a text into a file. -/
  writeFile : String → String → m (Except FileFault Unit)
  /-- Print a line. -/
  print : String → m Unit
  /-- Print a line among the warnings. -/
  warn : String → m Unit
  /-- Hand the typed lines to a step one after the other, until they end or the step says so. -/
  interact {σ : Type} : (String → σ → m (σ × Bool)) → σ → m σ

end FormulaEdit
