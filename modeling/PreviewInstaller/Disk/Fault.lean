set_option autoImplicit false

/-! # Faults of the file system

The ways in which the file system, or starting a program from it, can refuse. -/

namespace PreviewInstaller

/-- Why the file system refuses. -/
inductive DiskFault where
  | noSuchFile
  | execFormat
  | permissionDenied
  | fileExists
  | notDirectory
  | isDirectory
  | invalidArgument
  | busy
  | notEmpty
  | tooManyLinks
  /-- A name or value with a NUL byte, refused before the file system is asked. -/
  | nulByte
deriving DecidableEq, Repr

namespace DiskFault

/-- What a fault is called, and its number. -/
def description : DiskFault → String × Option Nat
  | .noSuchFile => ("No such file or directory", some 2)
  | .execFormat => ("Exec format error", some 8)
  | .permissionDenied => ("Permission denied", some 13)
  | .busy => ("Device or resource busy", some 16)
  | .fileExists => ("File exists", some 17)
  | .notDirectory => ("Not a directory", some 20)
  | .isDirectory => ("Is a directory", some 21)
  | .invalidArgument => ("Invalid argument", some 22)
  | .notEmpty => ("Directory not empty", some 39)
  | .tooManyLinks => ("Too many levels of symbolic links", some 40)
  | .nulByte => ("nul byte found in provided data", none)

/-- The text of a fault, with its number where it has one. -/
def message (fault : DiskFault) : String :=
  match fault.description with
  | (text, some number) => text ++ " (os error " ++ toString number ++ ")"
  | (text, none) => text

end DiskFault

end PreviewInstaller
