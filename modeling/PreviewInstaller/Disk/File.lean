set_option autoImplicit false

/-! # Files

A file holds text, or a script for the shell that is told by what it does. Its mode says who may
read it and run it; everything runs as the owner of the files. -/

namespace PreviewInstaller

/-- What a script does, one after another. -/
inductive ScriptStep where
  /-- Prints the number of its arguments and each of them in brackets. -/
  | printArguments
  /-- Prints the directory it runs in. -/
  | printDirectory
  /-- Prints a variable of its environment, or that it is unset. -/
  | printVariable (name : String)
  | print (text : String)
  | printError (text : String)
  /-- Makes an empty file. -/
  | touch (path : String)
  | exit (code : Nat)
  /-- Kills the script itself. -/
  | signal (number : Nat)
deriving DecidableEq, Repr

/-- What a file holds. -/
inductive Content where
  | text (text : String)
  | script (steps : List ScriptStep)
deriving DecidableEq, Repr

/-- A file. -/
structure File where
  content : Content
  mode : Nat
deriving DecidableEq, Repr

namespace File

/-- Whether the owner may read the file. -/
def isReadable (file : File) : Bool :=
  file.mode.testBit 8

/-- Whether the owner may run the file. -/
def isRunnable (file : File) : Bool :=
  file.mode.testBit 6

/-- Whether anyone may run the file. -/
def isExecutable (file : File) : Bool :=
  file.mode.testBit 6 || file.mode.testBit 3 || file.mode.testBit 0

/-- The mode of a file that can be run or not, as a checkout sets it. -/
def plainMode (runnable : Bool) : Nat :=
  if runnable then 0o755 else 0o644

end File

end PreviewInstaller
