/-!
# Faults of the operating system

The faults that files and processes can meet, each with the text that is shown
for it.  Those that the system numbers show their number.
-/

namespace IncludeGate

/-- A fault met while using a file or starting a process. -/
inductive SystemError where
  | notFound
  | permissionDenied
  | alreadyExists
  | notADirectory
  | isADirectory
  | nameTooLong
  | tooManyLinks
  /-- A path with a zero character. -/
  | zeroInPath
  /-- A program name or an argument with a zero character. -/
  | zeroInArgument
  /-- A text file that is not UTF-8. -/
  | notUtf8
  /-- An empty path where an absolute one is needed. -/
  | emptyPath
  deriving DecidableEq, Repr

/-- The text shown for a fault. -/
def SystemError.message : SystemError → String
  | notFound => "No such file or directory (os error 2)"
  | permissionDenied => "Permission denied (os error 13)"
  | alreadyExists => "File exists (os error 17)"
  | notADirectory => "Not a directory (os error 20)"
  | isADirectory => "Is a directory (os error 21)"
  | nameTooLong => "File name too long (os error 36)"
  | tooManyLinks => "Too many levels of symbolic links (os error 40)"
  | zeroInPath => "file name contained an unexpected NUL byte"
  | zeroInArgument => "nul byte found in provided data"
  | notUtf8 => "stream did not contain valid UTF-8"
  | emptyPath => "cannot make an empty path absolute"

end IncludeGate
