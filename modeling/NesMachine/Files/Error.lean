/-!
# File errors

Why a file operation fails, with the text that the operating system has for it.
-/

namespace NesMachine.Files

/-- Why a file operation fails. -/
inductive Error where
  | notFound
  | notDirectory
  | isDirectory
  | alreadyExists
  | nameTooLong
  | nulInName
  /-- The file is no text. -/
  | invalidText
  /-- Any other cause, with its text. -/
  | other (text : String)
  deriving DecidableEq, Repr

/-- The text of an error. -/
def Error.message : Error → String
  | notFound => "No such file or directory (os error 2)"
  | notDirectory => "Not a directory (os error 20)"
  | isDirectory => "Is a directory (os error 21)"
  | alreadyExists => "File exists (os error 17)"
  | nameTooLong => "File name too long (os error 36)"
  | nulInName => "file name contained an unexpected NUL byte"
  | invalidText => "stream did not contain valid UTF-8"
  | other text => text

end NesMachine.Files
