import PreviewInstaller.Path
import PreviewInstaller.TextMap

set_option autoImplicit false

/-! # Configuration

What an installation is told to do. The options come from the command line; the configuration adds
what follows from them and the working directory. Repository addresses and the variables of the
bootstrap script are functions of the configuration. -/

namespace PreviewInstaller

/-- The name of the repository that is installed from. -/
def repositoryName : String := "infra-deployments"

/-- The address of an organization's repository. -/
def repositoryUrl (organization : String) : String :=
  "https://github.com/" ++ organization ++ "/" ++ repositoryName

/-- The address of an organization's fork, which is written with its ending. -/
def forkUrl (organization : String) : String :=
  repositoryUrl organization ++ ".git"

/-- The full reference of a branch. -/
def branchReference (branch : String) : String :=
  "refs/heads/" ++ branch

/-- The options of an installation. -/
structure Options where
  tmpDir : String
  infraDeploymentsBranch : String
  infraDeploymentsOrg : String
  forkRemote : String
  forkOrg : String
  quayToken : String
  defaultQuayOrg : String
  defaultQuayOrgToken : String
  imageTagExpiration : String
  githubToken : String
  pacGithubAppId : String
  pacGithubAppPrivateKey : String
  oauthRedirectProxyUrl : Option String
deriving DecidableEq, Repr

/-- How many letters identify a test run. -/
def testBranchIdLength : Nat := 4

/-- The configuration of an installation. -/
structure Config where
  tmpDir : Path
  cloneDirectory : Path
  infraDeploymentsBranch : String
  infraDeploymentsOrg : String
  forkRemote : String
  forkOrg : String
  quayToken : String
  defaultQuayOrg : String
  defaultQuayOrgToken : String
  imageTagExpiration : String
  githubToken : String
  pacGithubAppId : String
  pacGithubAppPrivateKey : String
  oauthRedirectProxyUrl : Option String
  testBranchId : String
deriving DecidableEq, Repr

namespace Config

/-- The configuration that options make in a working directory. The clone lies in the temporary
directory, and an empty redirect url is none. -/
def ofOptions (options : Options) (workingDirectory : Path) (testBranchId : String) : Config :=
  let tmpDir := workingDirectory.join options.tmpDir
  { tmpDir
    cloneDirectory := tmpDir.join repositoryName
    infraDeploymentsBranch := options.infraDeploymentsBranch
    infraDeploymentsOrg := options.infraDeploymentsOrg
    forkRemote := options.forkRemote
    forkOrg := options.forkOrg
    quayToken := options.quayToken
    defaultQuayOrg := options.defaultQuayOrg
    defaultQuayOrgToken := options.defaultQuayOrgToken
    imageTagExpiration := options.imageTagExpiration
    githubToken := options.githubToken
    pacGithubAppId := options.pacGithubAppId
    pacGithubAppPrivateKey := options.pacGithubAppPrivateKey
    oauthRedirectProxyUrl := options.oauthRedirectProxyUrl.filter (· ≠ "")
    testBranchId }

/-- The address of the repository that is installed from. -/
def infraDeploymentsUrl (config : Config) : String :=
  repositoryUrl config.infraDeploymentsOrg

/-- The reference that is installed from. -/
def infraDeploymentsReference (config : Config) : String :=
  branchReference config.infraDeploymentsBranch

/-- The address of the fork. -/
def forkAddress (config : Config) : String :=
  forkUrl config.forkOrg

/-- The variable that identifies a test run. -/
def testBranchIdVariable : String := "TEST_BRANCH_ID"

/-- The variables that the bootstrap script reads. -/
def environment (config : Config) : TextMap String :=
  .ofEntries
    [("MY_GITHUB_ORG", config.forkOrg),
     ("MY_GITHUB_TOKEN", config.githubToken),
     ("MY_GIT_FORK_REMOTE", config.forkRemote),
     (testBranchIdVariable, config.testBranchId),
     ("QUAY_TOKEN", config.quayToken),
     ("IMAGE_CONTROLLER_QUAY_ORG", config.defaultQuayOrg),
     ("IMAGE_CONTROLLER_QUAY_TOKEN", config.defaultQuayOrgToken),
     ("BUILD_SERVICE_IMAGE_TAG_EXPIRATION", config.imageTagExpiration),
     ("PAC_GITHUB_APP_ID", config.pacGithubAppId),
     ("PAC_GITHUB_APP_PRIVATE_KEY", config.pacGithubAppPrivateKey)]

end Config

end PreviewInstaller
