import PreviewInstaller.Path

set_option autoImplicit false

/-! # Commands

What is started as a child process, and how it ends. The variables of a command are laid over the
environment that the child inherits. -/

namespace PreviewInstaller

/-- A program to be started. -/
structure Command where
  program : Path
  arguments : List String
  workingDirectory : Path
  environment : List (String × String)
deriving DecidableEq, Repr

/-- How a process ended. -/
inductive ExitStatus where
  | exited (code : Nat)
  | signalled (number : Nat)
deriving DecidableEq, Repr

namespace ExitStatus

/-- Whether a process ended as it should. -/
def isSuccess (status : ExitStatus) : Bool :=
  status = .exited 0

/-- The names of the signals. -/
def signalNames : List (Nat × String) :=
  [(1, "SIGHUP"), (2, "SIGINT"), (3, "SIGQUIT"), (4, "SIGILL"), (5, "SIGTRAP"), (6, "SIGABRT"),
   (7, "SIGBUS"), (8, "SIGFPE"), (9, "SIGKILL"), (10, "SIGUSR1"), (11, "SIGSEGV"),
   (12, "SIGUSR2"), (13, "SIGPIPE"), (14, "SIGALRM"), (15, "SIGTERM")]

/-- The text of a status. -/
def message : ExitStatus → String
  | .exited code => "exit status: " ++ toString code
  | .signalled number =>
    "signal: " ++ toString number ++
      match signalNames.lookup number with
      | some name => " (" ++ name ++ ")"
      | none => ""

end ExitStatus

end PreviewInstaller
