import Resettle.Generation
import Resettle.Path

/-!
# Errors

Why a piece of work could not be done.  `Failure` holds what can go wrong with a file or a
directory, `Error` the reasons that are reported; the wording is in the two `message` functions.
Of PHP that does not parse only the file is told, not the place in it nor what stands there.
-/

namespace Resettle

inductive Failure where
  | notFound
  | alreadyExists
  | notDirectory
  | isDirectory
  | notExecutable
  | nameTooLong
  | notText
deriving DecidableEq, Repr

namespace Failure

def message : Failure → String
  | notFound => "No such file or directory (os error 2)"
  | alreadyExists => "File exists (os error 17)"
  | notDirectory => "Not a directory (os error 20)"
  | isDirectory => "Is a directory (os error 21)"
  | notExecutable => "Exec format error (os error 8)"
  | nameTooLong => "File name too long (os error 36)"
  | notText => "stream did not contain valid UTF-8"

end Failure

inductive Error where
  | fileNotFound (path : Path)
  | read (path : Path) (cause : Failure)
  | write (path : Path) (cause : Failure)
  | parse (path : Path)
  | unsupportedGeneration (generation : Generation)
  | targetFileMissing (path : Path)
  | patchLocation (driver : String) (path : Path)
  | scaffold (reason : String)
  | configuration (reason : String)
  | validation (reason : String)
  | sessionNotFound (session : String)
deriving DecidableEq, Repr

namespace Error

/-- The error of a file that could not be read: a missing file has one of its own. -/
def ofRead (path : Path) : Failure → Error
  | .notFound => fileNotFound path
  | cause => read path cause

def path? : Error → Option Path
  | fileNotFound path => some path
  | read path _ => some path
  | write path _ => some path
  | parse path => some path
  | targetFileMissing path => some path
  | patchLocation _ path => some path
  | _ => none

def cause? : Error → Option Failure
  | read _ cause => some cause
  | write _ cause => some cause
  | _ => none

def isWrite : Error → Bool
  | write _ _ => true
  | _ => false

def message : Error → String
  | fileNotFound path => s!"File not found: {path.text}"
  | read path cause => s!"Failed to read file {path.text}: {cause.message}"
  | write path cause => s!"Failed to write file {path.text}: {cause.message}"
  | parse path => s!"Error parsing PHP file '{path.text}'"
  | unsupportedGeneration generation =>
      s!"Unsupported CodeIgniter version: {generation.shortLabel}"
  | targetFileMissing path => s!"Required target file is missing: {path.text}"
  | patchLocation driver path => s!"Could not locate '{driver}' config in {path.text}"
  | scaffold reason => s!"Scaffolding failed: {reason}"
  | configuration reason => s!"Configuration error: {reason}"
  | validation reason => s!"Validation error: {reason}"
  | sessionNotFound session => s!"Migration session not found: {session}"

end Error

end Resettle
