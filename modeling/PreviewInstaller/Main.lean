import PreviewInstaller.Console

set_option autoImplicit false

/-! # The executable

Rehearses what the command line says: the arguments, the variables and the working directory are
those of the process, and the rest of the world is a machine with an empty disk and a network that
does not answer. It shows what a session shows there, ends with its exit code, and changes nothing
outside of itself. -/

namespace PreviewInstaller.Rehearsal

open CommandLine

/-- The names of the variables that a session reads. -/
def variableNames : List String :=
  Program.filterVariable :: Flag.all.filterMap Flag.variableName?

/-- The variables of the process that a session reads. -/
def readVariables : IO (TextMap String) :=
  variableNames.foldlM (fun environment name => do
    match ← IO.getEnv name with
    | some value => return environment.insert name value
    | none => return environment) TextMap.empty

/-- A machine with nothing but a working directory. -/
def emptyMachine (environment : TextMap String) (workingDirectory : Location)
    (letters : List (Fin 26)) : Machine where
  disk := Disk.place ⟨[]⟩ workingDirectory .directory
  environment
  workingDirectory := some workingDirectory
  aliases := []
  network := .unreachable
  clusterFault := none
  clock := Instant.epoch
  letters
  transcript := []
  requests := []

/-- Letters for the identifier of a test run. -/
def drawLetters : IO (List (Fin 26)) :=
  (List.range testBranchIdLength).mapM fun _ => do
    let number ← IO.rand 0 25
    return ⟨number % 26, Nat.mod_lt number (by decide)⟩

/-- Rehearses a session and gives its exit code. -/
def run (arguments : List String) : IO UInt32 := do
  let environment ← readVariables
  let workingDirectory := Path.components ⟨(← IO.currentDir).toString⟩
  let machine := emptyMachine environment workingDirectory (← drawLetters)
  let (ending, machine) := machine.run (Program.session environment arguments)
  IO.print (Program.standardOutput environment ending machine)
  IO.eprint (Program.standardError environment ending machine)
  return UInt32.ofNat ending.exitCode

end PreviewInstaller.Rehearsal

/-- Rehearses the session that the arguments ask for. -/
def main (arguments : List String) : IO UInt32 :=
  PreviewInstaller.Rehearsal.run arguments
