import Runnel.Text.Ascii

/-!
# Runnel.Host.SystemError

Why the operating system refuses a request, and the text that says so.
-/

namespace Runnel

/-- Why a request to the operating system fails. -/
inductive SystemError where
  /-- A file or directory does not exist. -/
  | noEntry
  /-- A program has no format that can be run. -/
  | execFormat
  /-- Something may not be run. -/
  | denied
  /-- A name that stands for a directory in use. -/
  | busy
  /-- Something exists already. -/
  | alreadyExists
  /-- A directory is needed and something else is there. -/
  | notDirectory
  /-- A directory is there and something else is needed. -/
  | isDirectory
  /-- The request makes no sense. -/
  | invalid
  /-- A name is too long. -/
  | nameTooLong
  /-- A directory is not empty. -/
  | notEmpty
  /-- Links lead to links too often. -/
  | linkLoop
  /-- Nobody reads the other end. -/
  | brokenPipe
  /-- A name contains the character zero. -/
  | zeroInName
  /-- Only regular files can be copied. -/
  | notRegular
  deriving Repr, DecidableEq

namespace SystemError

/-- The number of an error that the system itself reports. -/
def number? : SystemError → Option Nat
  | .noEntry => some 2
  | .execFormat => some 8
  | .denied => some 13
  | .busy => some 16
  | .alreadyExists => some 17
  | .notDirectory => some 20
  | .isDirectory => some 21
  | .invalid => some 22
  | .brokenPipe => some 32
  | .nameTooLong => some 36
  | .notEmpty => some 39
  | .linkLoop => some 40
  | .zeroInName | .notRegular => none

/-- The text of an error, without its number. -/
def reason : SystemError → String
  | .noEntry => "No such file or directory"
  | .execFormat => "Exec format error"
  | .denied => "Permission denied"
  | .busy => "Device or resource busy"
  | .alreadyExists => "File exists"
  | .notDirectory => "Not a directory"
  | .isDirectory => "Is a directory"
  | .invalid => "Invalid argument"
  | .brokenPipe => "Broken pipe"
  | .nameTooLong => "File name too long"
  | .notEmpty => "Directory not empty"
  | .linkLoop => "Too many levels of symbolic links"
  | .zeroInName => "file name contained an unexpected NUL byte"
  | .notRegular => "the source path is neither a regular file nor a symlink to a regular file"

/-- The text of an error, with its number if it has one. -/
def message (e : SystemError) : String :=
  match e.number? with
  | some n => e.reason ++ " (os error " ++ Text.digits n ++ ")"
  | none => e.reason

end SystemError
end Runnel
