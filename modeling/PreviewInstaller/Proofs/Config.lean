import PreviewInstaller.Config
import PreviewInstaller.Proofs.TextMap

set_option autoImplicit false

/-! # Laws of the configuration

The variables of the bootstrap script have different names, so each one has an entry of its own. -/

namespace PreviewInstaller.Config

/-- The entries of the script's variables, in order. -/
theorem entries_environment (config : Config) :
    config.environment.entries =
      [("MY_GITHUB_ORG", config.forkOrg),
       ("MY_GITHUB_TOKEN", config.githubToken),
       ("MY_GIT_FORK_REMOTE", config.forkRemote),
       (testBranchIdVariable, config.testBranchId),
       ("QUAY_TOKEN", config.quayToken),
       ("IMAGE_CONTROLLER_QUAY_ORG", config.defaultQuayOrg),
       ("IMAGE_CONTROLLER_QUAY_TOKEN", config.defaultQuayOrgToken),
       ("BUILD_SERVICE_IMAGE_TAG_EXPIRATION", config.imageTagExpiration),
       ("PAC_GITHUB_APP_ID", config.pacGithubAppId),
       ("PAC_GITHUB_APP_PRIVATE_KEY", config.pacGithubAppPrivateKey)] := rfl

/-- The names of the script's variables, in order. -/
def scriptVariables : List String :=
  ["MY_GITHUB_ORG", "MY_GITHUB_TOKEN", "MY_GIT_FORK_REMOTE", testBranchIdVariable, "QUAY_TOKEN",
   "IMAGE_CONTROLLER_QUAY_ORG", "IMAGE_CONTROLLER_QUAY_TOKEN", "BUILD_SERVICE_IMAGE_TAG_EXPIRATION",
   "PAC_GITHUB_APP_ID", "PAC_GITHUB_APP_PRIVATE_KEY"]

theorem keys_environment (config : Config) :
    config.environment.entries.map (·.1) = scriptVariables := rfl

theorem get?_environment_eq_none_iff {config : Config} {name : String} :
    config.environment.get? name = none ↔ name ∉ scriptVariables :=
  TextMap.find?_eq_none_iff.trans (by rw [keys_environment])

theorem get?_testBranchIdVariable (config : Config) :
    config.environment.get? testBranchIdVariable = some config.testBranchId := rfl

end PreviewInstaller.Config
