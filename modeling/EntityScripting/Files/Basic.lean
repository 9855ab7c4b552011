/-!
# Files

Why a file cannot be read or written, and what a program needs of the files around it: to read a
text and to write one.
-/

namespace EntityScripting

inductive FileError where
  | notFound
  | isDirectory
  | notADirectory
  | nameTooLong
  /-- A name with a zero character. -/
  | badName
  /-- The bytes are not UTF-8. -/
  | notText
  | other (message : String)
deriving DecidableEq, Repr, Inhabited

def FileError.message : FileError → String
  | .notFound => "No such file or directory (os error 2)"
  | .isDirectory => "Is a directory (os error 21)"
  | .notADirectory => "Not a directory (os error 20)"
  | .nameTooLong => "File name too long (os error 36)"
  | .badName => "file name contained an unexpected NUL byte"
  | .notText => "stream did not contain valid UTF-8"
  | .other message => message

/-- The files that a program works on. -/
structure FileAccess (m : Type → Type) where
  readText : (path : String) → m (Except FileError String)
  writeText : (path text : String) → m (Except FileError Unit)

end EntityScripting
