/-!
# File system faults

Why a file operation is refused, in the words and numbers of the operating system.
-/

namespace Rollout

inductive Fault where
  | notFound
  | permissionDenied
  | alreadyThere
  | notADirectory
  | isADirectory
  | nameTooLong
  | execFormat
  | connectionRefused
  /-- A name with a zero character never reaches the system. -/
  | zeroInName
  deriving DecidableEq, Repr

def Fault.message : Fault → String
  | notFound => "No such file or directory (os error 2)"
  | permissionDenied => "Permission denied (os error 13)"
  | alreadyThere => "File exists (os error 17)"
  | notADirectory => "Not a directory (os error 20)"
  | isADirectory => "Is a directory (os error 21)"
  | nameTooLong => "File name too long (os error 36)"
  | execFormat => "Exec format error (os error 8)"
  | connectionRefused => "Connection refused (os error 111)"
  | zeroInName => "file name contained an unexpected NUL byte"

end Rollout
