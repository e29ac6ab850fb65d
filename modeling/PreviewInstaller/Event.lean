import PreviewInstaller.Error

set_option autoImplicit false

/-! # Events

What a run reports while it goes on. An event names what happened; its level and its text follow
from that. -/

namespace PreviewInstaller

/-- How much an event matters. -/
inductive Level where
  | error
  | warn
  | info
deriving DecidableEq, Repr

/-- The name of a level. -/
def Level.name : Level → String
  | .error => "ERROR"
  | .warn => "WARN"
  | .info => "INFO"

/-- An object inside a namespace. -/
structure ObjectName where
  namespaceName : String
  name : String
deriving DecidableEq, Repr

/-- Namespace and name between backticks, with a slash between them. -/
def ObjectName.text (object : ObjectName) : String :=
  "`" ++ object.namespaceName ++ "/" ++ object.name ++ "`"

/-- What happened in a run. -/
inductive Event where
  | usingTemporaryDirectory (path : Path)
  | removingFolder (path : Path)
  | cloning (url reference : String)
  | addedRemote (name url : String)
  | installing (key value : String)
  | running (script : String) (arguments : List String) (directory : Path)
  | finished (script : String)
  | redirectUrlNotSet
  | patchFailed (configMap : ObjectName) (fault : Cluster.ClientFault)
  | patched (configMap : ObjectName) (key : String)
  | deploymentLookupFailed (deployment : ObjectName) (fault : Cluster.ClientFault)
  | scaleDownFailed (deployment : ObjectName) (fault : Cluster.ClientFault)
  | scaledDown (deployment : ObjectName)
  | createdNamespace (name : String)
  | createdSecret (secret : ObjectName)
  | updatedSecret (secret : ObjectName)
  | installed
  /-- The error that ended the run. -/
  | failed (error : Error)
deriving DecidableEq, Repr

namespace Event

/-- The level of an event. -/
def level : Event → Level
  | .redirectUrlNotSet | .patchFailed .. | .deploymentLookupFailed .. | .scaleDownFailed ..
  | .failed _ => .error
  | .removingFolder _ => .warn
  | _ => .info

/-- The text of an event. -/
def message : Event → String
  | .usingTemporaryDirectory path => "using temporary directory " ++ path.text
  | .removingFolder path => "folder " ++ path.text ++ " already exists... removing"
  | .cloning url reference => "cloning '" ++ url ++ "' with git ref '" ++ reference ++ "'"
  | .addedRemote name url => "added remote '" ++ name ++ "' pointing to '" ++ url ++ "'"
  | .installing key value => "installing with " ++ key ++ "=" ++ value
  | .running script arguments directory =>
    "running `" ++ script ++ " " ++ " ".intercalate arguments ++ "` in " ++ directory.text
  | .finished script => script ++ " finished successfully"
  | .redirectUrlNotSet =>
    "OAUTH_REDIRECT_PROXY_URL not set: not updating spi configuration"
  | .patchFailed configMap fault =>
    "Error patching ConfigMap " ++ configMap.text ++ ": " ++ fault.message
  | .patched configMap key => "Patched ConfigMap " ++ configMap.text ++ " with " ++ key
  | .deploymentLookupFailed deployment fault =>
    "Error getting Deployment " ++ deployment.text ++ ": " ++ fault.message
  | .scaleDownFailed deployment fault =>
    "Error scaling down Deployment " ++ deployment.text ++ ": " ++ fault.message
  | .scaledDown deployment => "Scaled down Deployment " ++ deployment.text ++ " to 0 replicas"
  | .createdNamespace name => "Created Namespace `" ++ name ++ "`"
  | .createdSecret secret => "Created Secret " ++ secret.text
  | .updatedSecret secret => "Updated Secret " ++ secret.text
  | .installed => "AppStudio installed in preview mode"
  | .failed error => error.message

end Event

end PreviewInstaller
