import PreviewInstaller.Config
import PreviewInstaller.Procedure

set_option autoImplicit false

/-! # Checkouts

A fresh checkout of one branch, with the fork as a second remote. Whatever directory lies in the
way is removed first. -/

namespace PreviewInstaller

/-- What is checked out and where. -/
structure Checkout where
  url : String
  branch : String
  directory : Path
  forkRemote : String
  forkUrl : String
deriving DecidableEq, Repr

namespace Checkout

/-- The checkout that a configuration asks for. -/
def ofConfig (config : Config) : Checkout where
  url := config.infraDeploymentsUrl
  branch := config.infraDeploymentsBranch
  directory := config.cloneDirectory
  forkRemote := config.forkRemote
  forkUrl := config.forkAddress

/-- Removes a directory, if there is one. -/
def removeStale (directory : Path) : Task Error Unit := do
  if ← Task.findDirectory directory then
    Task.report (.removingFolder directory)
    Task.orThrow (Error.removal directory) (← Task.removeDirectory directory)

/-- Clones a repository and checks out one of its branches. -/
def cloneBranch (url branch : String) (directory : Path) : Task Error Unit := do
  let reference := branchReference branch
  Task.report (.cloning url reference)
  match ← Task.clone url branch directory with
  | .done => return
  | .failed fault => throw (.clone url reference fault)
  | .crashed => throw .crash

/-- Adds the remote of the fork to a repository. -/
def addForkRemote (directory : Path) (name url : String) : Task Error Unit := do
  Task.orThrow (Error.remote name url) (← Task.addRemote directory name url)
  Task.report (.addedRemote name url)

/-- Makes the checkout. -/
def sync (checkout : Checkout) : Task Error Unit := do
  removeStale checkout.directory
  cloneBranch checkout.url checkout.branch checkout.directory
  addForkRemote checkout.directory checkout.forkRemote checkout.forkUrl

end Checkout

end PreviewInstaller
