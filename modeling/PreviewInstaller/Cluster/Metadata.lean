import PreviewInstaller.Codec

set_option autoImplicit false

/-! # Metadata of cluster objects

What every object of the cluster carries beside its own content: its names, its marks, its history
and its owners. Objects are dated with instants, unless a finer type of times is asked for. -/

namespace PreviewInstaller.Cluster

open Codec Fields

variable {τ : Type} [Timed τ]

/-- A map from names to texts, as labels and annotations are. -/
abbrev Texts := TextMap String

/-- Which manager set which fields of an object. -/
structure ManagedFields (τ : Type := Instant) where
  apiVersion : Option String
  fieldsType : Option String
  fieldsV1 : Option FieldValue
  manager : Option String
  operation : Option String
  subresource : Option String
  time : Option τ

/-- The codec of `ManagedFields`. -/
def ManagedFields.codec : Codec (ManagedFields τ) :=
  object <| Fields.as
    ((optional "apiVersion" text).both <|
      (optional "fieldsType" text).both <|
      (optional "fieldsV1" any).both <|
      (optional "manager" text).both <|
      (optional "operation" text).both <|
      (optional "subresource" text).both <|
      (optional "time" Timed.codec))
    (fun (a, b, c, d, e, f, g) => ⟨a, b, c, d, e, f, g⟩)
    (fun m => (m.apiVersion, m.fieldsType, m.fieldsV1, m.manager, m.operation, m.subresource,
      m.time))

/-- The owner of an object. -/
structure OwnerReference where
  apiVersion : String
  blockOwnerDeletion : Option Bool
  controller : Option Bool
  kind : String
  name : String
  uid : String

/-- The codec of `OwnerReference`. -/
def OwnerReference.codec : Codec OwnerReference :=
  object <| Fields.as
    ((required "apiVersion" text "").both <|
      (optional "blockOwnerDeletion" bool).both <|
      (optional "controller" bool).both <|
      (required "kind" text "").both <|
      (required "name" text "").both <|
      (required "uid" text ""))
    (fun (a, b, c, d, e, f) => ⟨a, b, c, d, e, f⟩)
    (fun o => (o.apiVersion, o.blockOwnerDeletion, o.controller, o.kind, o.name, o.uid))

/-- The metadata of an object. -/
structure Metadata (τ : Type := Instant) where
  annotations : Option Texts := none
  creationTimestamp : Option τ := none
  deletionGracePeriodSeconds : Option Int64 := none
  deletionTimestamp : Option τ := none
  finalizers : Option (List String) := none
  generateName : Option String := none
  generation : Option Int64 := none
  labels : Option Texts := none
  managedFields : Option (List (ManagedFields τ)) := none
  name : Option String := none
  namespaceName : Option String := none
  ownerReferences : Option (List OwnerReference) := none
  resourceVersion : Option String := none
  selfLink : Option String := none
  uid : Option String := none

/-- The codec of `Metadata`. -/
def Metadata.codec : Codec (Metadata τ) :=
  object <| Fields.as
    ((optional "annotations" (map text)).both <|
      (optional "creationTimestamp" Timed.codec).both <|
      (optional "deletionGracePeriodSeconds" int64).both <|
      (optional "deletionTimestamp" Timed.codec).both <|
      (optional "finalizers" (list text)).both <|
      (optional "generateName" text).both <|
      (optional "generation" int64).both <|
      (optional "labels" (map text)).both <|
      (optional "managedFields" (list ManagedFields.codec)).both <|
      (optional "name" text).both <|
      (optional "namespace" text).both <|
      (optional "ownerReferences" (list OwnerReference.codec)).both <|
      (optional "resourceVersion" text).both <|
      (optional "selfLink" text).both <|
      (optional "uid" text))
    (fun (a, b, c, d, e, f, g, h, i, j, k, l, m, n, o) =>
      ⟨a, b, c, d, e, f, g, h, i, j, k, l, m, n, o⟩)
    (fun m => (m.annotations, m.creationTimestamp, m.deletionGracePeriodSeconds,
      m.deletionTimestamp, m.finalizers, m.generateName, m.generation, m.labels, m.managedFields,
      m.name, m.namespaceName, m.ownerReferences, m.resourceVersion, m.selfLink, m.uid))

/-- The codec of an object of the cluster: its version and kind, and then its fields. -/
def versioned {α : Type} (apiVersion kind : String) (fields : Fields α) : Codec α :=
  object <| Fields.as
    ((tag "apiVersion" apiVersion).both <| (tag "kind" kind).both fields)
    (fun (_, _, value) => value)
    (fun value => ((), (), value))

/-- The metadata field of an object, which is always written. -/
def metadataField : Fields (Metadata τ) :=
  required "metadata" Metadata.codec {}

end PreviewInstaller.Cluster
