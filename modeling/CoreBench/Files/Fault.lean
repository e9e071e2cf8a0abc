/-!
What can go wrong with a file, and how it is worded.
-/

namespace CoreBench.Files

/-- Why the system refuses something about a file. -/
inductive Fault where
  | notFound
  | notADirectory
  | isADirectory
  | nameTooLong
  | noSpace
  | nulInPath
  | notText
  | stalled
  | other (reason : String)
  deriving DecidableEq, Repr

/-- The wording of a fault. -/
def Fault.message : Fault → String
  | .notFound => "No such file or directory (os error 2)"
  | .notADirectory => "Not a directory (os error 20)"
  | .isADirectory => "Is a directory (os error 21)"
  | .nameTooLong => "File name too long (os error 36)"
  | .noSpace => "No space left on device (os error 28)"
  | .nulInPath => "file name contained an unexpected NUL byte"
  | .notText => "stream did not contain valid UTF-8"
  | .stalled => "failed to write whole buffer"
  | .other reason => reason

end CoreBench.Files
