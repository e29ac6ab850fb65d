import PreviewInstaller.Bootstrap
import PreviewInstaller.Checkout
import PreviewInstaller.OauthRedirect
import PreviewInstaller.QuaySecret

set_option autoImplicit false

/-! # Installation

The installation makes the checkout, runs its bootstrap script, sets the redirect url and stores the
pull secret. Each step but the redirect ends it by failing; nothing is tried again, and the checkout
stays as it is. -/

namespace PreviewInstaller.Install

/-- Installs from a checkout. -/
def runFrom (checkout : Checkout) (config : Config) : Task Error Unit := do
  checkout.sync
  let environment := config.environment
  Task.report (.installing Config.testBranchIdVariable
    ((environment.get? Config.testBranchIdVariable).getD ""))
  Bootstrap.runPreview checkout.directory environment
  ExceptT.lift (OauthRedirect.push config.oauthRedirectProxyUrl)
  let _ ← QuaySecret.provision config.quayToken
  Task.report .installed

/-- Installs from the checkout that the configuration asks for. -/
def run (config : Config) : Task Error Unit := do
  Task.report (.usingTemporaryDirectory config.tmpDir)
  runFrom (.ofConfig config) config

end PreviewInstaller.Install
