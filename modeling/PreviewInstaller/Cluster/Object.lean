import PreviewInstaller.Cluster.Metadata

set_option autoImplicit false

/-! # Namespaces, secrets and configuration maps

The objects of the cluster that hold settings, and the namespaces they lie in. -/

namespace PreviewInstaller.Cluster

open Codec Fields

/-! ## Namespaces -/

/-- A condition that a namespace is in. -/
structure NamespaceCondition where
  lastTransitionTime : Option Instant
  message : Option String
  reason : Option String
  status : String
  type : String

/-- The codec of `NamespaceCondition`. -/
def NamespaceCondition.codec : Codec NamespaceCondition :=
  object <| Fields.as
    ((optional "lastTransitionTime" instant).both <|
      (optional "message" text).both <|
      (optional "reason" text).both <|
      (required "status" text "").both <|
      (required "type" text ""))
    (fun (a, b, c, d, e) => ⟨a, b, c, d, e⟩)
    (fun c => (c.lastTransitionTime, c.message, c.reason, c.status, c.type))

/-- What is wanted of a namespace. -/
structure NamespaceSpec where
  finalizers : Option (List String)

/-- The codec of `NamespaceSpec`. -/
def NamespaceSpec.codec : Codec NamespaceSpec :=
  object <| Fields.as (optional "finalizers" (list text)) (fun a => ⟨a⟩) (·.finalizers)

/-- The state of a namespace. -/
structure NamespaceStatus where
  conditions : Option (List NamespaceCondition)
  phase : Option String

/-- The codec of `NamespaceStatus`. -/
def NamespaceStatus.codec : Codec NamespaceStatus :=
  object <| Fields.as
    ((optional "conditions" (list NamespaceCondition.codec)).both <| optional "phase" text)
    (fun (a, b) => ⟨a, b⟩)
    (fun s => (s.conditions, s.phase))

/-- A namespace. -/
structure Namespace where
  metadata : Metadata := {}
  spec : Option NamespaceSpec := none
  status : Option NamespaceStatus := none

/-- The codec of `Namespace`. -/
def Namespace.codec : Codec Namespace :=
  versioned "v1" "Namespace" <| Fields.as
    (metadataField.both <|
      (optional "spec" NamespaceSpec.codec).both <|
      optional "status" NamespaceStatus.codec)
    (fun (a, b, c) => ⟨a, b, c⟩)
    (fun n => (n.metadata, n.spec, n.status))

/-! ## Secrets -/

/-- A secret: bytes under names, and a type that says what they are for. -/
structure Secret where
  data : Option (TextMap (List UInt8)) := none
  immutable : Option Bool := none
  metadata : Metadata := {}
  stringData : Option Texts := none
  type : Option String := none

/-- The codec of `Secret`. -/
def Secret.codec : Codec Secret :=
  versioned "v1" "Secret" <| Fields.as
    ((optional "data" (map bytes)).both <|
      (optional "immutable" bool).both <|
      metadataField.both <|
      (optional "stringData" (map text)).both <|
      optional "type" text)
    (fun (a, b, c, d, e) => ⟨a, b, c, d, e⟩)
    (fun s => (s.data, s.immutable, s.metadata, s.stringData, s.type))

/-! ## Configuration maps -/

/-- A configuration map: texts and bytes under names. -/
structure ConfigMap where
  binaryData : Option (TextMap (List UInt8)) := none
  data : Option Texts := none
  immutable : Option Bool := none
  metadata : Metadata := {}

/-- The codec of `ConfigMap`. -/
def ConfigMap.codec : Codec ConfigMap :=
  versioned "v1" "ConfigMap" <| Fields.as
    ((optional "binaryData" (map bytes)).both <|
      (optional "data" (map text)).both <|
      (optional "immutable" bool).both <|
      metadataField)
    (fun (a, b, c, d) => ⟨a, b, c, d⟩)
    (fun m => (m.binaryData, m.data, m.immutable, m.metadata))

end PreviewInstaller.Cluster
