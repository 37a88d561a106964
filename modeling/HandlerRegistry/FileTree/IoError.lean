/-!
# Why an operation on a tree fails

Each cause has one text. Those that the operating system reports carry its number.
-/

namespace HandlerRegistry
set_option autoImplicit false

/-- The cause of a failed operation on files. -/
inductive IoError where
  | notFound
  /-- A file is read that the process may not read. -/
  | permissionDenied
  | busy
  | notADirectory
  | isADirectory
  | invalidArgument
  | nameTooLong
  | tooManyLinks
  /-- A path holds a NUL byte. -/
  | nulInPath
  /-- A file read as text is not UTF-8. -/
  | notText
  /-- Every name that a temporary entry could have is in use. -/
  | noTemporaryName
  /-- An entry exists where a new one was to be made. -/
  | alreadyExists
  | directoryNotEmpty
deriving DecidableEq, Repr

def IoError.message : IoError → String
  | .notFound => "No such file or directory (os error 2)"
  | .permissionDenied => "Permission denied (os error 13)"
  | .busy => "Device or resource busy (os error 16)"
  | .notADirectory => "Not a directory (os error 20)"
  | .isADirectory => "Is a directory (os error 21)"
  | .invalidArgument => "Invalid argument (os error 22)"
  | .nameTooLong => "File name too long (os error 36)"
  | .tooManyLinks => "Too many levels of symbolic links (os error 40)"
  | .nulInPath => "file name contained an unexpected NUL byte"
  | .notText => "stream did not contain valid UTF-8"
  | .noTemporaryName => "too many temporary files exist"
  | .alreadyExists => "File exists (os error 17)"
  | .directoryNotEmpty => "Directory not empty (os error 39)"

end HandlerRegistry
