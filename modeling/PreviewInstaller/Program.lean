import PreviewInstaller.CommandLine.Parser
import PreviewInstaller.Install

set_option autoImplicit false

/-! # The program

A subcommand with its options, run from the working directory: the configuration is made first, and
the cluster is looked for only by the subcommands that talk to it. The whole program parses its
arguments, runs what they say and ends with an exit code. -/

namespace PreviewInstaller.Program

open CommandLine

/-- A letter by its place in the alphabet. -/
def letter (index : Fin 26) : Char :=
  Char.ofNat ('a'.toNat + index.val)

/-- A number of letters drawn one after another. -/
def drawLetters {ε : Type} : Nat → Task ε (List Char)
  | 0 => return []
  | count + 1 => do
    let first ← Task.drawLetter
    return letter first :: (← drawLetters count)

/-- The configuration that options make in the working directory. -/
def configure (options : Options) : Task Error Config := do
  let directory ← Task.orThrow Error.currentDirectory (← Task.findWorkingDirectory)
  let letters ← drawLetters testBranchIdLength
  return .ofOptions options directory (String.ofList letters)

/-- The configuration of a run that talks to the cluster. -/
def configureWithCluster (options : Options) : Task Error Config := do
  let config ← configure options
  Task.orThrow Error.cluster (← Task.connect)
  return config

/-- Runs a subcommand. -/
def execute (subcommand : Subcommand) (options : Options) : Task Error Unit := do
  match subcommand with
  | .install => Install.run (← configureWithCluster options)
  | .clone => (Checkout.ofConfig (← configure options)).sync
  | .quaySecret =>
    let config ← configureWithCluster options
    let _ ← QuaySecret.provision config.quayToken
  | .oauthRedirect =>
    let config ← configureWithCluster options
    ExceptT.lift (OauthRedirect.push config.oauthRedirectProxyUrl)

/-- How the program ended. -/
inductive Ending where
  /-- The arguments yield no command. -/
  | noticed (notice : Notice)
  | succeeded
  | failed (error : Error)
deriving DecidableEq, Repr

/-- The exit code of the program. A crash has one of its own. -/
def Ending.exitCode : Ending → Nat
  | .noticed notice => notice.exitCode
  | .succeeded => 0
  | .failed .crash => 101
  | .failed _ => 1

/-- Runs what arguments say; variables stand in for flags that are not given. -/
def run (environment : Environment) (arguments : List String) : Procedure Ending :=
  match parse arguments with
  | .error notice => pure (.noticed notice)
  | .ok (subcommand, given) => do
    match ← (execute subcommand (optionsOf environment given)).run with
    | .ok () => return .succeeded
    | .error error => return .failed error

/-- Runs the whole program, which reports the error that ends it. A crash says nothing. -/
def session (environment : Environment) (arguments : List String) : Procedure Ending := do
  let ending ← run environment arguments
  match ending with
  | .failed error =>
    if error ≠ .crash then Procedure.act (.report (.failed error))
    return ending
  | _ => return ending

end PreviewInstaller.Program
