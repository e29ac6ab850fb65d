import PreviewInstaller.Log
import PreviewInstaller.Program

set_option autoImplicit false

/-! # The console

What a finished session shows on its standard output and its standard error. Log lines and the
output of the child share the standard output; a notice that nobody asked for goes to the standard
error. -/

namespace PreviewInstaller.Program

open CommandLine

/-- The variable that holds the log filter. -/
def filterVariable : String := "RUST_LOG"

/-- The standard output of a session. -/
def standardOutput (environment : Environment) (ending : Ending) (machine : Machine) : String :=
  match ending with
  | .noticed notice => if notice.isWanted then notice.message environment else ""
  | _ => Log.output (Log.directivesOf (environment.get? filterVariable)) machine

/-- The standard error of a session. Where no subcommand is named, it is the help. -/
def standardError (environment : Environment) (ending : Ending) (machine : Machine) : String :=
  match ending with
  | .noticed .nothingAsked => helpText environment .program
  | .noticed notice => if notice.isWanted then "" else notice.message environment ++ "\n"
  | _ => machine.errorOutput

end PreviewInstaller.Program
