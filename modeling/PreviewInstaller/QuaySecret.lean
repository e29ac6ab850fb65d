import PreviewInstaller.Cluster.Client

set_option autoImplicit false

/-! # The pull secret of the image registry

The token of the registry is a docker configuration in base64, wrapped into lines or not. It is
decoded before the cluster is asked anything, and stored as the one entry of a secret: in a fresh
one, or in place of whatever data the present one has. -/

namespace PreviewInstaller.QuaySecret

open Cluster

/-- The namespace that holds the secret. -/
def secretNamespace : String := "quay-secret-ns"

/-- The name of the secret. -/
def secretName : String := "quay-secret"

/-- The name of the secret's entry. -/
def dockerConfigKey : String := ".dockerconfigjson"

/-- The type of a secret with a docker configuration. -/
def dockerConfigType : String := "kubernetes.io/dockerconfigjson"

/-- A token without its line breaks. -/
def unwrapped (token : String) : List Char :=
  token.toList.filter fun c => c ≠ '\r' && c ≠ '\n'

/-- The docker configuration that a token holds. -/
def decodeToken (token : String) : Except Error (List UInt8) :=
  if unwrapped token = [] then .error .missingQuayToken
  else (Base64.decode (Text.utf8 (unwrapped token))).mapError .invalidQuayToken

/-- Creates a namespace unless it exists. -/
def ensureNamespace (name : String) : Task Error Unit := do
  match ← Task.outcome (get Namespace.codec .namespaces name) with
  | .ok _ => return
  | .error fault =>
    if fault.isNotFound then
      let fresh : Namespace := { metadata := { name := some name } }
      let _ ← Task.mapFault (.namespaceCreation name) (create Namespace.codec .namespaces fresh)
      Task.report (.createdNamespace name)
    else throw (.namespaceLookup name fault)

/-- The data of a secret with one docker configuration. -/
def dockerConfigData (dockerConfig : List UInt8) : TextMap (List UInt8) :=
  TextMap.singleton dockerConfigKey dockerConfig

/-- A new secret with a docker configuration. -/
def freshSecret (name namespaceName : String) (dockerConfig : List UInt8) : Secret where
  metadata := { name := some name, namespaceName := some namespaceName }
  type := some dockerConfigType
  data := some (dockerConfigData dockerConfig)

/-- A secret with its data replaced by a docker configuration. -/
def updatedSecret (secret : Secret) (dockerConfig : List UInt8) : Secret :=
  { secret with data := some (dockerConfigData dockerConfig), stringData := none }

/-- Stores a docker configuration in a secret, which is created or replaced. -/
def applySecret (name namespaceName : String) (dockerConfig : List UInt8) :
    Task Error Secret := do
  let secrets := Collection.secrets namespaceName
  match ← Task.outcome (get Secret.codec secrets name) with
  | .ok secret =>
    let stored ← Task.mapFault (.secretUpdate name)
      (replace Secret.codec secrets name (updatedSecret secret dockerConfig))
    Task.report (.updatedSecret ⟨namespaceName, name⟩)
    return stored
  | .error fault =>
    if fault.isNotFound then
      let stored ← Task.mapFault (.secretCreation name)
        (create Secret.codec secrets (freshSecret name namespaceName dockerConfig))
      Task.report (.createdSecret ⟨namespaceName, name⟩)
      return stored
    else throw (.secretLookup name fault)

/-- Stores the docker configuration of a token in the pull secret. -/
def provision (token : String) : Task Error Secret := do
  let dockerConfig ← Task.orThrow id (decodeToken token)
  ensureNamespace secretNamespace
  applySecret secretName secretNamespace dockerConfig

end PreviewInstaller.QuaySecret
