import PreviewInstaller.Base64
import PreviewInstaller.Cluster.Reply
import PreviewInstaller.Disk.Fault
import PreviewInstaller.Git.Fault
import PreviewInstaller.Command

set_option autoImplicit false

/-! # Errors of an installation

The causes for which a run ends without success, each with the text that the user sees. -/

namespace PreviewInstaller

/-- Why a run ends without success. -/
inductive Error where
  | currentDirectory (fault : DiskFault)
  | removal (path : Path) (fault : DiskFault)
  | clone (url reference : String) (fault : GitFault)
  | remote (name url : String) (fault : GitFault)
  | launch (script : String) (fault : DiskFault)
  | bootstrapFailed (script : String) (status : ExitStatus)
  | missingQuayToken
  | invalidQuayToken (fault : Base64.Fault)
  | namespaceLookup (name : String) (fault : Cluster.ClientFault)
  | namespaceCreation (name : String) (fault : Cluster.ClientFault)
  | secretLookup (name : String) (fault : Cluster.ClientFault)
  | secretCreation (name : String) (fault : Cluster.ClientFault)
  | secretUpdate (name : String) (fault : Cluster.ClientFault)
  | cluster (fault : Cluster.ClientFault)
  /-- A branch name with a NUL byte: the process ends on the spot and says nothing. -/
  | crash
deriving DecidableEq, Repr

namespace Error

/-- The text of an error. -/
def message : Error → String
  | .currentDirectory fault =>
    "could not determine current working directory: " ++ fault.message
  | .removal path fault => "error removing " ++ path.text ++ " folder: " ++ fault.message
  | .clone url reference fault =>
    "error cloning '" ++ url ++ "' with git ref '" ++ reference ++ "': " ++ fault.message
  | .remote name url fault =>
    "error creating remote '" ++ name ++ "' (" ++ url ++ "): " ++ fault.message
  | .launch script fault => "failed to run " ++ script ++ ": " ++ fault.message
  | .bootstrapFailed script status => script ++ " finished with " ++ status.message
  | .missingQuayToken =>
    "failed to obtain quay token from 'QUAY_TOKEN' env; make sure the env exists"
  | .invalidQuayToken fault =>
    "failed to decode quay token. Make sure that QUAY_TOKEN env contain a base64 token: " ++
      fault.message
  | .namespaceLookup name fault =>
    "error when getting namespace " ++ name ++ ": " ++ fault.message
  | .namespaceCreation name fault =>
    "error when creating namespace " ++ name ++ ": " ++ fault.message
  | .secretLookup name fault => "error when getting secret " ++ name ++ ": " ++ fault.message
  | .secretCreation name fault => "error when creating secret " ++ name ++ ": " ++ fault.message
  | .secretUpdate name fault => "error when updating secret " ++ name ++ ": " ++ fault.message
  | .cluster fault => fault.message
  | .crash => ""

/-- The fault of the cluster client that caused an error, where one did. -/
def clientFault? : Error → Option Cluster.ClientFault
  | .namespaceLookup _ fault | .namespaceCreation _ fault | .secretLookup _ fault
  | .secretCreation _ fault | .secretUpdate _ fault | .cluster fault => some fault
  | _ => none

end Error

end PreviewInstaller
