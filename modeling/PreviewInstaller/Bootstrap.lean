import PreviewInstaller.Procedure

set_option autoImplicit false

/-! # The bootstrap script

The repository brings a script that sets the cluster up. It runs in the checkout, with the variables
of the configuration over the inherited environment, and has to end with status 0. -/

namespace PreviewInstaller.Bootstrap

/-- The script, seen from the checkout. -/
def previewScript : String := "hack/bootstrap-cluster.sh"

/-- The arguments that ask for a preview. -/
def previewArguments : List String := ["preview", "--keycloak", "--toolchain"]

/-- Runs a script in a directory and waits for its end. -/
def runScript (script : String) (arguments : List String) (directory : Path)
    (environment : TextMap String) : Task Error Unit := do
  Task.report (.running script arguments directory)
  let command : Command :=
    { program := directory.join script
      arguments
      workingDirectory := directory
      environment := environment.entries }
  let status ← Task.orThrow (Error.launch script) (← Task.launch command)
  if status.isSuccess then Task.report (.finished script)
  else throw (.bootstrapFailed script status)

/-- Runs the preview installation of a checkout. -/
def runPreview (directory : Path) (environment : TextMap String) : Task Error Unit :=
  runScript previewScript previewArguments directory environment

end PreviewInstaller.Bootstrap
