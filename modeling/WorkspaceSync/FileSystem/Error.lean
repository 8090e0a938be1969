/-!
# File system errors

Why a file operation failed, and the words for it.
-/

namespace WorkspaceSync

inductive IoError where
  | notFound
  | alreadyExists
  | notADirectory
  | isADirectory
  | notRegularFile
  | nameTooLong
  | invalidArgument
  /-- A path with the character that ends a path for the platform. -/
  | nulInPath
  /-- A text file that is not encoded in UTF-8. -/
  | invalidText
  /-- Any other failure, in the words of the platform. -/
  | platform (text : String)
  deriving DecidableEq, Repr

def IoError.message : IoError → String
  | notFound => "No such file or directory (os error 2)"
  | alreadyExists => "File exists (os error 17)"
  | notADirectory => "Not a directory (os error 20)"
  | isADirectory => "Is a directory (os error 21)"
  | notRegularFile => "not a regular file"
  | nameTooLong => "File name too long (os error 36)"
  | invalidArgument => "Invalid argument (os error 22)"
  | nulInPath => "file name contained an unexpected NUL byte"
  | invalidText => "stream did not contain valid UTF-8"
  | platform text => text

end WorkspaceSync
