import PreviewInstaller.Cluster.Client

set_option autoImplicit false

/-! # The redirect of the OAuth service

The OAuth service is pointed at a redirect proxy: the url is merged into its configuration map, and
its deployment is scaled down to nothing, so that it comes back with the new configuration. The
steps are a courtesy to the installation: the first one that fails is reported, ends them, and fails
nothing else. -/

namespace PreviewInstaller.OauthRedirect

open Cluster

variable {τ : Type}

/-- The namespace of the service. -/
def serviceNamespace : String := "spi-system"

/-- The configuration map of the service. -/
def configMapName : ObjectName := ⟨serviceNamespace, "spi-oauth-service-environment-config"⟩

/-- The deployment of the service. -/
def deploymentName : ObjectName := ⟨serviceNamespace, "spi-oauth-service"⟩

/-- The key of the redirect url in the configuration map. -/
def redirectUrlKey : String := "OAUTH_REDIRECT_PROXY_URL"

/-- The annotation that tells when a deployment was restarted. -/
def restartedAtKey : String := "kubectl.kubernetes.io/restartedAt"

/-- The patch that sets the redirect url and leaves everything else. -/
def redirectPatch (url : String) : Json :=
  .object [("data", .object [(redirectUrlKey, .text url)])]

/-- Merges the redirect url into the configuration map. -/
def patchConfigMap (url : String) : Task ClientFault ConfigMap := do
  let patched ← mergePatch ConfigMap.codec (.configMaps serviceNamespace) configMapName.name
    (redirectPatch url)
  Task.report (.patched configMapName redirectUrlKey)
  return patched

/-- A deployment with no replicas and the time of its restart. -/
def scaledDown (deployment : Deployment τ) (restartedAt : String) : Deployment τ :=
  let annotations := deployment.metadata.annotations.getD .empty
  { deployment with
    metadata := { deployment.metadata with
      annotations := some (annotations.insert restartedAtKey restartedAt) }
    spec := some { deployment.spec.getD {} with replicas := some 0 } }

/-- Scales a deployment down and marks it as restarted now. -/
def scaleDown [Timed τ] (deployment : Deployment τ) : Task ClientFault (Deployment τ) := do
  let scaled := scaledDown deployment (← Task.readClock).rfc3339
  let name := scaled.metadata.name.getD ""
  let namespaceName := scaled.metadata.namespaceName.getD serviceNamespace
  let stored ← replace Deployment.codec (.deployments namespaceName) name scaled
  Task.report (.scaledDown ⟨namespaceName, name⟩)
  return stored

/-- The steps that set the redirect url; the first one that fails ends them with the event that
tells of it. The deployment is dated with a type of times. -/
def stepsDated (τ : Type) [Timed τ] (url : Option String) : Task Event Unit := do
  let url := url.getD ""
  if url = "" then throw .redirectUrlNotSet
  let _ ← Task.mapFault (.patchFailed configMapName) (patchConfigMap url)
  let deployment : Deployment τ ← Task.mapFault (.deploymentLookupFailed deploymentName)
    (get Deployment.codec (.deployments serviceNamespace) deploymentName.name)
  let _ ← Task.mapFault (.scaleDownFailed deploymentName) (scaleDown deployment)

/-- The steps that set the redirect url, with the deployment dated to the fraction of a second. -/
def steps (url : Option String) : Task Event Unit :=
  stepsDated PointInTime url

/-- Points the service at the redirect proxy, as far as that succeeds. -/
def push (url : Option String) : Procedure Unit := do
  match ← (steps url).run with
  | .ok () => return
  | .error event => Procedure.act (.report event)

end PreviewInstaller.OauthRedirect
