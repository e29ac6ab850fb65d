import PreviewInstaller.Cluster.Object
import PreviewInstaller.Proofs.Cluster.Deployment
import PreviewInstaller.Proofs.Schema

set_option autoImplicit false

/-! # Schemas of cluster objects

The members of secrets and deployments that are known, at every depth: a table for each type, and
that its codec keeps what the table says. -/

namespace PreviewInstaller.Cluster

open Codec Fields

/-! ## Metadata -/

/-- What is known of `ManagedFields`. -/
def ManagedFields.schema : Schema :=
  .record [("apiVersion", .plain), ("fieldsType", .plain), ("fieldsV1", .plain),
    ("manager", .plain), ("operation", .plain), ("subresource", .plain), ("time", .time)]

theorem ManagedFields.keeps_codec : ManagedFields.codec.Keeps ManagedFields.schema :=
  have hfields :=
    keeps_both (keeps_optional "apiVersion" keeps_text) (by decide) <|
    keeps_both (keeps_optional "fieldsType" keeps_text) (by decide) <|
    keeps_both (keeps_optional "fieldsV1" keeps_any) (by decide) <|
    keeps_both (keeps_optional "manager" keeps_text) (by decide) <|
    keeps_both (keeps_optional "operation" keeps_text) (by decide) <|
    keeps_both (keeps_optional "subresource" keeps_text) (by decide) <|
    keeps_optional "time" keeps_instant
  keeps_object (keeps_as hfields fun _ => rfl)

/-- What is known of `OwnerReference`. -/
def OwnerReference.schema : Schema :=
  .record [("apiVersion", .plain), ("blockOwnerDeletion", .plain), ("controller", .plain),
    ("kind", .plain), ("name", .plain), ("uid", .plain)]

theorem OwnerReference.keeps_codec : OwnerReference.codec.Keeps OwnerReference.schema :=
  have hfields :=
    keeps_both (keeps_required "apiVersion" keeps_text _) (by decide) <|
    keeps_both (keeps_optional "blockOwnerDeletion" keeps_bool) (by decide) <|
    keeps_both (keeps_optional "controller" keeps_bool) (by decide) <|
    keeps_both (keeps_required "kind" keeps_text _) (by decide) <|
    keeps_both (keeps_required "name" keeps_text _) (by decide) <|
    keeps_required "uid" keeps_text _
  keeps_object (keeps_as hfields fun _ => rfl)

/-- What is known of `Metadata`. -/
def Metadata.schema : Schema :=
  .record [("annotations", .map .plain), ("creationTimestamp", .time),
    ("deletionGracePeriodSeconds", .plain), ("deletionTimestamp", .time),
    ("finalizers", .list .plain), ("generateName", .plain), ("generation", .plain),
    ("labels", .map .plain), ("managedFields", .list ManagedFields.schema), ("name", .plain),
    ("namespace", .plain), ("ownerReferences", .list OwnerReference.schema),
    ("resourceVersion", .plain), ("selfLink", .plain), ("uid", .plain)]

theorem Metadata.keeps_codec : Metadata.codec.Keeps Metadata.schema :=
  have hfields :=
    keeps_both (keeps_optional "annotations" (keeps_map keeps_text)) (by decide) <|
    keeps_both (keeps_optional "creationTimestamp" keeps_instant) (by decide) <|
    keeps_both (keeps_optional "deletionGracePeriodSeconds" keeps_int64) (by decide) <|
    keeps_both (keeps_optional "deletionTimestamp" keeps_instant) (by decide) <|
    keeps_both (keeps_optional "finalizers" (keeps_list keeps_text)) (by decide) <|
    keeps_both (keeps_optional "generateName" keeps_text) (by decide) <|
    keeps_both (keeps_optional "generation" keeps_int64) (by decide) <|
    keeps_both (keeps_optional "labels" (keeps_map keeps_text)) (by decide) <|
    keeps_both (keeps_optional "managedFields" (keeps_list ManagedFields.keeps_codec))
      (by decide) <|
    keeps_both (keeps_optional "name" keeps_text) (by decide) <|
    keeps_both (keeps_optional "namespace" keeps_text) (by decide) <|
    keeps_both (keeps_optional "ownerReferences" (keeps_list OwnerReference.keeps_codec))
      (by decide) <|
    keeps_both (keeps_optional "resourceVersion" keeps_text) (by decide) <|
    keeps_both (keeps_optional "selfLink" keeps_text) (by decide) <|
    keeps_optional "uid" keeps_text
  keeps_object (keeps_as hfields fun _ => rfl)

/-- Version and kind are known beside the fields. -/
theorem keeps_versioned {α : Type} {fields : Fields α} {table : List (String × Schema)}
    (apiVersion kind : String) (hversion : "apiVersion" ∉ table.map (·.1))
    (hkind : "kind" ∉ table.map (·.1)) (h : fields.Keeps table) :
    (versioned apiVersion kind fields).Keeps
      (.record (("apiVersion", .plain) :: ("kind", .plain) :: table)) :=
  have htagged := keeps_both (keeps_tag "kind" kind) (by simpa using hkind) h
  have hfields := keeps_both (keeps_tag "apiVersion" apiVersion) (by simpa using hversion) htagged
  keeps_object (keeps_as hfields fun _ => rfl)

/-! ## Secrets -/

/-- What is known of `Secret`. -/
def Secret.schema : Schema :=
  .record [("apiVersion", .plain), ("kind", .plain), ("data", .map .plain), ("immutable", .plain),
    ("metadata", Metadata.schema), ("stringData", .map .plain), ("type", .plain)]

theorem Secret.keeps_codec : Secret.codec.Keeps Secret.schema :=
  have hfields :=
    keeps_both (keeps_optional "data" (keeps_map keeps_bytes)) (by decide) <|
    keeps_both (keeps_optional "immutable" keeps_bool) (by decide) <|
    keeps_both (keeps_required "metadata" Metadata.keeps_codec _) (by decide) <|
    keeps_both (keeps_optional "stringData" (keeps_map keeps_text)) (by decide) <|
    keeps_optional "type" keeps_text
  keeps_versioned "v1" "Secret" (by decide) (by decide) (keeps_as hfields fun _ => rfl)

/-! ## Shapes -/

/-- What is known of `SelectorRequirement`. -/
def SelectorRequirement.schema : Schema :=
  .record [("key", .plain), ("operator", .plain), ("values", .list .plain)]

theorem SelectorRequirement.keeps_codec :
    SelectorRequirement.codec.Keeps SelectorRequirement.schema :=
  have hfields :=
    keeps_both (keeps_required "key" keeps_text _) (by decide) <|
    keeps_both (keeps_required "operator" keeps_text _) (by decide) <|
    keeps_optional "values" (keeps_list keeps_text)
  keeps_object (keeps_as hfields fun _ => rfl)

/-- What is known of `LabelSelector`. -/
def LabelSelector.schema : Schema :=
  .record [("matchExpressions", .list SelectorRequirement.schema), ("matchLabels", .map .plain)]

theorem LabelSelector.keeps_codec : LabelSelector.codec.Keeps LabelSelector.schema :=
  have hfields :=
    keeps_both (keeps_optional "matchExpressions" (keeps_list SelectorRequirement.keeps_codec))
      (by decide) <|
    keeps_optional "matchLabels" (keeps_map keeps_text)
  keeps_object (keeps_as hfields fun _ => rfl)

theorem keeps_intOrText : intOrText.Keeps .plain :=
  keeps_either keeps_int32 keeps_text

/-- What is known of a leaf. -/
def Leaf.schema : Leaf → Schema
  | .text | .bool | .int32 | .int64 | .intOrText => .plain
  | .texts => .map .plain
  | .selector => LabelSelector.schema
  | .metadata => Metadata.schema

theorem Leaf.keeps_codec (leaf : Leaf) :
    (leaf.codec : Codec (leaf.Value Instant)).Keeps leaf.schema := by
  cases leaf with
  | text => exact keeps_text
  | bool => exact keeps_bool
  | int32 => exact keeps_int32
  | int64 => exact keeps_int64
  | intOrText => exact keeps_intOrText
  | texts => exact keeps_map keeps_text
  | selector => exact LabelSelector.keeps_codec
  | metadata => exact Metadata.keeps_codec

mutual

/-- What is known of a shape. -/
def Shape.schema : Shape → Schema
  | .leaf leaf => leaf.schema
  | .list element => .list element.schema
  | .record row => .record row.table

/-- What is known of the fields of a row. -/
def Row.table : Row → List (String × Schema)
  | .done => []
  | .optional key shape rest | .required key shape rest => (key, shape.schema) :: rest.table

end

theorem Row.map_fst_table (row : Row) : row.table.map (·.1) = row.keys := by
  cases row with
  | done => rfl
  | optional key shape rest => exact congrArg (key :: ·) rest.map_fst_table
  | required key shape rest => exact congrArg (key :: ·) rest.map_fst_table

mutual

theorem Shape.keeps_codec : (shape : Shape) → shape.isProper = true →
    (shape.codec : Codec (shape.Value Instant)).Keeps shape.schema
  | .leaf leaf, _ => leaf.keeps_codec
  | .list element, hproper => keeps_list (element.keeps_codec hproper)
  | .record row, hproper => keeps_object (row.keeps_fields hproper)

theorem Row.keeps_fields : (row : Row) → row.isProper = true →
    (row.fields : Fields (row.Value Instant)).Keeps row.table
  | .done, _ => keeps_empty
  | .optional key shape rest, hproper => by
    obtain ⟨⟨hkey, hshape⟩, hrest⟩ := by simpa [Row.isProper] using hproper
    exact keeps_both (keeps_optional key (shape.keeps_codec hshape))
      (by simpa [rest.map_fst_table] using hkey) (rest.keeps_fields hrest)
  | .required key shape rest, hproper => by
    obtain ⟨⟨hkey, hshape⟩, hrest⟩ := by simpa [Row.isProper] using hproper
    exact keeps_both (keeps_required key (shape.keeps_codec hshape) shape.zero)
      (by simpa [rest.map_fst_table] using hkey) (rest.keeps_fields hrest)

end

/-! ## Deployments -/

/-- What is known of `Strategy`, with what is known of its `RollingUpdate`. -/
def Strategy.schema : Schema :=
  .record [("rollingUpdate", .record [("maxSurge", .plain), ("maxUnavailable", .plain)]),
    ("type", .plain)]

theorem Strategy.keeps_codec : Strategy.codec.Keeps Strategy.schema :=
  have hupdate :=
    keeps_both (keeps_optional "maxSurge" keeps_intOrText) (by decide) <|
    keeps_optional "maxUnavailable" keeps_intOrText
  have hrollingUpdate : RollingUpdate.codec.Keeps _ :=
    keeps_object (keeps_as hupdate fun _ => rfl)
  have hfields :=
    keeps_both (keeps_optional "rollingUpdate" hrollingUpdate) (by decide) <|
    keeps_optional "type" keeps_text
  keeps_object (keeps_as hfields fun _ => rfl)

/-- What is known of `PodSpec`. -/
def PodSpec.schema : Schema :=
  .record Pod.row.table

theorem PodSpec.keeps_codec : PodSpec.codec.Keeps PodSpec.schema :=
  keeps_object (keeps_as (Pod.row.keeps_fields Pod.isProper_row) fun _ => rfl)

/-- What is known of `PodTemplate`. -/
def PodTemplate.schema : Schema :=
  .record [("metadata", Metadata.schema), ("spec", PodSpec.schema)]

theorem PodTemplate.keeps_codec : PodTemplate.codec.Keeps PodTemplate.schema :=
  have hfields :=
    keeps_both (keeps_optional "metadata" Metadata.keeps_codec) (by decide) <|
    keeps_optional "spec" PodSpec.keeps_codec
  keeps_object (keeps_as hfields fun _ => rfl)

/-- What is known of `DeploymentSpec`. -/
def DeploymentSpec.schema : Schema :=
  .record [("minReadySeconds", .plain), ("paused", .plain), ("progressDeadlineSeconds", .plain),
    ("replicas", .plain), ("revisionHistoryLimit", .plain), ("selector", LabelSelector.schema),
    ("strategy", Strategy.schema), ("template", PodTemplate.schema)]

theorem DeploymentSpec.keeps_codec : DeploymentSpec.codec.Keeps DeploymentSpec.schema :=
  have hfields :=
    keeps_both (keeps_optional "minReadySeconds" keeps_int32) (by decide) <|
    keeps_both (keeps_optional "paused" keeps_bool) (by decide) <|
    keeps_both (keeps_optional "progressDeadlineSeconds" keeps_int32) (by decide) <|
    keeps_both (keeps_optional "replicas" keeps_int32) (by decide) <|
    keeps_both (keeps_optional "revisionHistoryLimit" keeps_int32) (by decide) <|
    keeps_both (keeps_required "selector" LabelSelector.keeps_codec _) (by decide) <|
    keeps_both (keeps_optional "strategy" Strategy.keeps_codec) (by decide) <|
    keeps_required "template" PodTemplate.keeps_codec _
  keeps_object (keeps_as hfields fun _ => rfl)

/-- What is known of `DeploymentCondition`. -/
def DeploymentCondition.schema : Schema :=
  .record [("lastTransitionTime", .time), ("lastUpdateTime", .time), ("message", .plain),
    ("reason", .plain), ("status", .plain), ("type", .plain)]

theorem DeploymentCondition.keeps_codec :
    DeploymentCondition.codec.Keeps DeploymentCondition.schema :=
  have hfields :=
    keeps_both (keeps_optional "lastTransitionTime" keeps_instant) (by decide) <|
    keeps_both (keeps_optional "lastUpdateTime" keeps_instant) (by decide) <|
    keeps_both (keeps_optional "message" keeps_text) (by decide) <|
    keeps_both (keeps_optional "reason" keeps_text) (by decide) <|
    keeps_both (keeps_required "status" keeps_text _) (by decide) <|
    keeps_required "type" keeps_text _
  keeps_object (keeps_as hfields fun _ => rfl)

/-- What is known of `DeploymentStatus`. -/
def DeploymentStatus.schema : Schema :=
  .record [("availableReplicas", .plain), ("collisionCount", .plain),
    ("conditions", .list DeploymentCondition.schema), ("observedGeneration", .plain),
    ("readyReplicas", .plain), ("replicas", .plain), ("unavailableReplicas", .plain),
    ("updatedReplicas", .plain)]

theorem DeploymentStatus.keeps_codec : DeploymentStatus.codec.Keeps DeploymentStatus.schema :=
  have hfields :=
    keeps_both (keeps_optional "availableReplicas" keeps_int32) (by decide) <|
    keeps_both (keeps_optional "collisionCount" keeps_int32) (by decide) <|
    keeps_both (keeps_optional "conditions" (keeps_list DeploymentCondition.keeps_codec))
      (by decide) <|
    keeps_both (keeps_optional "observedGeneration" keeps_int64) (by decide) <|
    keeps_both (keeps_optional "readyReplicas" keeps_int32) (by decide) <|
    keeps_both (keeps_optional "replicas" keeps_int32) (by decide) <|
    keeps_both (keeps_optional "unavailableReplicas" keeps_int32) (by decide) <|
    keeps_optional "updatedReplicas" keeps_int32
  keeps_object (keeps_as hfields fun _ => rfl)

/-- What is known of `Deployment`. -/
def Deployment.schema : Schema :=
  .record [("apiVersion", .plain), ("kind", .plain), ("metadata", Metadata.schema),
    ("spec", DeploymentSpec.schema), ("status", DeploymentStatus.schema)]

theorem Deployment.keeps_codec : Deployment.codec.Keeps Deployment.schema :=
  have hfields :=
    keeps_both (keeps_required "metadata" Metadata.keeps_codec _) (by decide) <|
    keeps_both (keeps_optional "spec" DeploymentSpec.keeps_codec) (by decide) <|
    keeps_optional "status" DeploymentStatus.keeps_codec
  keeps_versioned "apps/v1" "Deployment" (by decide) (by decide) (keeps_as hfields fun _ => rfl)

-- the table reaches into the volumes of the pods
example : Deployment.schema.at?
    [.member "spec", .member "template", .member "spec", .member "volumes", .element 0,
     .member "secret", .member "secretName"] = some .plain := by
  rfl

end PreviewInstaller.Cluster
