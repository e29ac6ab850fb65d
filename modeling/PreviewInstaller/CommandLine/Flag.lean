import PreviewInstaller.Config

set_option autoImplicit false

/-! # Flags and subcommands

The subcommands of the program and the flags they all take. A flag that is not given falls back to
its variable, and then to its default. Variables that hold secrets are never shown. -/

namespace PreviewInstaller.CommandLine

/-- The name of the program. -/
def programName : String := "appstudio-installer"

/-- What the program is for. -/
def programAbout : String := "Install AppStudio on a cluster for end-to-end testing"

/-- The version of the program. -/
def programVersion : String := "0.1.0"

/-! ## Subcommands -/

/-- What the program can be told to do. -/
inductive Subcommand where
  | install
  | clone
  | quaySecret
  | oauthRedirect
deriving DecidableEq, Repr

namespace Subcommand

/-- The subcommands in the order of the help. -/
def all : List Subcommand := [.install, .clone, .quaySecret, .oauthRedirect]

/-- The name of a subcommand. -/
def name : Subcommand → String
  | .install => "install"
  | .clone => "clone"
  | .quaySecret => "quay-secret"
  | .oauthRedirect => "oauth-redirect"

/-- What a subcommand does. -/
def about : Subcommand → String
  | .install =>
    "Clone infra-deployments, bootstrap the cluster in preview mode and apply post-install fixups"
  | .clone => "Only clone infra-deployments and add the fork remote"
  | .quaySecret => "Only create or update the e2e quay pull secret"
  | .oauthRedirect => "Only push the OAuth redirect proxy url to the SPI oauth service"

/-- The subcommand of a name. -/
def ofName? (name : String) : Option Subcommand :=
  all.find? (·.name = name)

end Subcommand

/-- The name of the subcommand that prints help. -/
def helpName : String := "help"

/-- What that subcommand does. -/
def helpAbout : String := "Print this message or the help of the given subcommand(s)"

/-! ## Flags -/

/-- The flags of every subcommand. -/
inductive Flag where
  | tmpDir
  | infraDeploymentsBranch
  | infraDeploymentsOrg
  | forkRemote
  | forkOrg
  | quayToken
  | defaultQuayOrg
  | defaultQuayOrgToken
  | imageTagExpiration
  | githubToken
  | pacGithubAppId
  | pacGithubAppPrivateKey
  | oauthRedirectProxyUrl
deriving DecidableEq, Repr

namespace Flag

/-- The flags in the order of the help. -/
def all : List Flag :=
  [.tmpDir, .infraDeploymentsBranch, .infraDeploymentsOrg, .forkRemote, .forkOrg, .quayToken,
   .defaultQuayOrg, .defaultQuayOrgToken, .imageTagExpiration, .githubToken, .pacGithubAppId,
   .pacGithubAppPrivateKey, .oauthRedirectProxyUrl]

/-- The name of a flag, without its dashes. -/
def name : Flag → String
  | .tmpDir => "tmp-dir"
  | .infraDeploymentsBranch => "infra-deployments-branch"
  | .infraDeploymentsOrg => "infra-deployments-org"
  | .forkRemote => "fork-remote"
  | .forkOrg => "fork-org"
  | .quayToken => "quay-token"
  | .defaultQuayOrg => "default-quay-org"
  | .defaultQuayOrgToken => "default-quay-org-token"
  | .imageTagExpiration => "image-tag-expiration"
  | .githubToken => "github-token"
  | .pacGithubAppId => "pac-github-app-id"
  | .pacGithubAppPrivateKey => "pac-github-app-private-key"
  | .oauthRedirectProxyUrl => "oauth-redirect-proxy-url"

/-- What a flag sets. -/
def about : Flag → String
  | .tmpDir =>
    "Directory, relative to the working directory, holding temporary files and clones"
  | .infraDeploymentsBranch => "Branch of infra-deployments to install from"
  | .infraDeploymentsOrg => "GitHub organization infra-deployments is cloned from"
  | .forkRemote => "Name of the git remote pointing at the fork"
  | .forkOrg => "GitHub organization holding the infra-deployments fork used for testing"
  | .quayToken => "Base64-encoded docker config.json with quay.io login credentials"
  | .defaultQuayOrg => "Quay organization for repositories generated by image-controller"
  | .defaultQuayOrgToken => "OAuth2 token for the default quay organization"
  | .imageTagExpiration => "Expiration applied to image tags pushed by build-service"
  | .githubToken => "GitHub token used to push test branches to the fork"
  | .pacGithubAppId => "Pipelines-as-code GitHub App id"
  | .pacGithubAppPrivateKey => "Pipelines-as-code GitHub App private key"
  | .oauthRedirectProxyUrl => "OAuth redirect proxy url pushed to the SPI oauth service"

/-- The variable that a flag falls back to. -/
def variableName? : Flag → Option String
  | .tmpDir => none
  | .infraDeploymentsBranch => some "INFRA_DEPLOYMENTS_BRANCH"
  | .infraDeploymentsOrg => some "INFRA_DEPLOYMENTS_ORG"
  | .forkRemote => none
  | .forkOrg => some "MY_GITHUB_ORG"
  | .quayToken => some "QUAY_TOKEN"
  | .defaultQuayOrg => some "DEFAULT_QUAY_ORG"
  | .defaultQuayOrgToken => some "DEFAULT_QUAY_ORG_TOKEN"
  | .imageTagExpiration => some "IMAGE_TAG_EXPIRATION"
  | .githubToken => some "GITHUB_TOKEN"
  | .pacGithubAppId => some "E2E_PAC_GITHUB_APP_ID"
  | .pacGithubAppPrivateKey => some "E2E_PAC_GITHUB_APP_PRIVATE_KEY"
  | .oauthRedirectProxyUrl => some "OAUTH_REDIRECT_PROXY_URL"

/-- Whether the help hides the value of a flag's variable. -/
def isSecret : Flag → Bool
  | .quayToken | .defaultQuayOrgToken | .githubToken | .pacGithubAppPrivateKey => true
  | _ => false

/-- What a flag is without flag and variable; `none` leaves it unset. -/
def default? : Flag → Option String
  | .tmpDir => some "tmp"
  | .infraDeploymentsBranch => some "main"
  | .infraDeploymentsOrg => some "redhat-appstudio"
  | .forkRemote => some "qe"
  | .forkOrg => some "redhat-appstudio-qe"
  | .defaultQuayOrg => some "redhat-appstudio-qe"
  | .imageTagExpiration => some "6h"
  | .quayToken | .defaultQuayOrgToken | .githubToken | .pacGithubAppId
  | .pacGithubAppPrivateKey => some ""
  | .oauthRedirectProxyUrl => none

/-- The flag of a name. -/
def ofName? (name : String) : Option Flag :=
  all.find? (·.name = name)

/-- The name of a flag's value in the help: the flag's in capitals, between angle brackets. -/
def placeholder (flag : Flag) : String :=
  let letters := flag.name.toList.map fun c => if c = '-' then '_' else c.toUpper
  String.ofList ('<' :: letters ++ ['>'])

/-- A flag with its dashes and the name of its value. -/
def usage (flag : Flag) : String :=
  "--" ++ flag.name ++ " " ++ flag.placeholder

theorem mem_all (flag : Flag) : flag ∈ all := by
  cases flag <;> decide

end Flag

end PreviewInstaller.CommandLine
