import PreviewInstaller.Cluster.Deployment
import PreviewInstaller.Proofs.Cluster.Shape

set_option autoImplicit false

/-! # Laws of deployments

A deployment is read as it was written, with its times rounded down to the second; dated with
instants, it is read as it was. To read a deployment with points in time and to drop their fractions
is to read it with instants. -/

namespace PreviewInstaller.Cluster

open Codec Fields

variable {τ σ : Type}

/-! ## Strategies -/

theorem RollingUpdate.lawful_codec : RollingUpdate.codec.Lawful :=
  have hfields :=
    lawful_both (lawful_optional "maxSurge" lawful_intOrText) (by decide) <|
    lawful_optional "maxUnavailable" lawful_intOrText
  lawful_object (lawful_as hfields fun _ => rfl)

theorem Strategy.lawful_codec : Strategy.codec.Lawful :=
  have hfields :=
    lawful_both (lawful_optional "rollingUpdate" RollingUpdate.lawful_codec) (by decide) <|
    lawful_optional "type" lawful_text
  lawful_object (lawful_as hfields fun _ => rfl)

/-! ## Pods -/

theorem Pod.isProper_row : Pod.row.isProper = true := by
  decide +kernel

/-- The same pod with other times. -/
def PodSpec.map (f : τ → σ) (spec : PodSpec τ) : PodSpec σ :=
  ⟨Pod.row.map f spec.row⟩

theorem PodSpec.map_id : PodSpec.map (id : τ → τ) = id := by
  funext spec
  rw [PodSpec.map, Row.map_id]
  rfl

theorem PodSpec.settles_codec [Timed τ] {settle : τ → τ}
    (h : (Timed.codec : Codec τ).Settles settle) : PodSpec.codec.Settles (PodSpec.map settle) :=
  settles_object (settles_as (Pod.row.settles_fields h Pod.isProper_row) fun _ => rfl)

theorem PodSpec.refines_codec [Timed τ] [Timed σ] {change : τ → σ}
    (h : (Timed.codec : Codec τ).Refines Timed.codec change) :
    PodSpec.codec.Refines PodSpec.codec (PodSpec.map change) :=
  refines_object (refines_as (Pod.row.refines_fields h) (fun _ => rfl) fun _ => rfl)

/-- The same template with other times. -/
def PodTemplate.map (f : τ → σ) (template : PodTemplate τ) : PodTemplate σ where
  metadata := template.metadata.map (Metadata.map f)
  spec := template.spec.map (PodSpec.map f)

theorem PodTemplate.map_id : PodTemplate.map (id : τ → τ) = id := by
  funext template
  simp [PodTemplate.map, Metadata.map_id, PodSpec.map_id]

theorem PodTemplate.settles_codec [Timed τ] {settle : τ → τ}
    (h : (Timed.codec : Codec τ).Settles settle) :
    PodTemplate.codec.Settles (PodTemplate.map settle) :=
  have hfields :=
    settles_both (settles_optional "metadata" (Metadata.settles_codec h)) (by decide) <|
    settles_optional "spec" (PodSpec.settles_codec h)
  settles_object (settles_as hfields fun _ => rfl)

theorem PodTemplate.refines_codec [Timed τ] [Timed σ] {change : τ → σ}
    (h : (Timed.codec : Codec τ).Refines Timed.codec change) :
    PodTemplate.codec.Refines PodTemplate.codec (PodTemplate.map change) :=
  have hfields :=
    refines_both (refines_optional "metadata" (Metadata.refines_codec h)) <|
    refines_optional "spec" (PodSpec.refines_codec h)
  refines_object (refines_as hfields (fun _ => rfl) fun _ => rfl)

/-! ## Specification -/

/-- The same wishes with other times in the template. -/
def DeploymentSpec.map (f : τ → σ) (spec : DeploymentSpec τ) : DeploymentSpec σ :=
  { spec with template := spec.template.map f }

theorem DeploymentSpec.map_id : DeploymentSpec.map (id : τ → τ) = id := by
  funext spec
  simp [DeploymentSpec.map, PodTemplate.map_id]

theorem DeploymentSpec.settles_codec [Timed τ] {settle : τ → τ}
    (h : (Timed.codec : Codec τ).Settles settle) :
    DeploymentSpec.codec.Settles (DeploymentSpec.map settle) :=
  have hfields :=
    settles_both (lawful_optional "minReadySeconds" lawful_int32).settles (by decide) <|
    settles_both (lawful_optional "paused" lawful_bool).settles (by decide) <|
    settles_both (lawful_optional "progressDeadlineSeconds" lawful_int32).settles (by decide) <|
    settles_both (lawful_optional "replicas" lawful_int32).settles (by decide) <|
    settles_both (lawful_optional "revisionHistoryLimit" lawful_int32).settles (by decide) <|
    settles_both (lawful_required "selector" LabelSelector.lawful_codec _).settles (by decide) <|
    settles_both (lawful_optional "strategy" Strategy.lawful_codec).settles (by decide) <|
    settles_required "template" (PodTemplate.settles_codec h) _
  settles_object (settles_as hfields fun _ => rfl)

theorem DeploymentSpec.refines_codec [Timed τ] [Timed σ] {change : τ → σ}
    (h : (Timed.codec : Codec τ).Refines Timed.codec change) :
    DeploymentSpec.codec.Refines DeploymentSpec.codec (DeploymentSpec.map change) :=
  have hfields :=
    refines_both (refines_refl (optional "minReadySeconds" int32)) <|
    refines_both (refines_refl (optional "paused" bool)) <|
    refines_both (refines_refl (optional "progressDeadlineSeconds" int32)) <|
    refines_both (refines_refl (optional "replicas" int32)) <|
    refines_both (refines_refl (optional "revisionHistoryLimit" int32)) <|
    refines_both (refines_refl (required "selector" LabelSelector.codec {})) <|
    refines_both (refines_refl (optional "strategy" Strategy.codec)) <|
    refines_required "template" (PodTemplate.refines_codec h) {}
  refines_object (refines_as hfields (fun _ => rfl) fun _ => rfl)

/-! ## State -/

/-- The same condition at other times. -/
def DeploymentCondition.map (f : τ → σ) (condition : DeploymentCondition τ) :
    DeploymentCondition σ :=
  { condition with
    lastTransitionTime := condition.lastTransitionTime.map f
    lastUpdateTime := condition.lastUpdateTime.map f }

theorem DeploymentCondition.map_id : DeploymentCondition.map (id : τ → τ) = id := by
  funext condition
  simp [DeploymentCondition.map]

theorem DeploymentCondition.settles_codec [Timed τ] {settle : τ → τ}
    (h : (Timed.codec : Codec τ).Settles settle) :
    DeploymentCondition.codec.Settles (DeploymentCondition.map settle) :=
  have hfields :=
    settles_both (settles_optional "lastTransitionTime" h) (by decide) <|
    settles_both (settles_optional "lastUpdateTime" h) (by decide) <|
    settles_both (lawful_optional "message" lawful_text).settles (by decide) <|
    settles_both (lawful_optional "reason" lawful_text).settles (by decide) <|
    settles_both (lawful_required "status" lawful_text _).settles (by decide) <|
    (lawful_required "type" lawful_text _).settles
  settles_object (settles_as hfields fun _ => rfl)

theorem DeploymentCondition.refines_codec [Timed τ] [Timed σ] {change : τ → σ}
    (h : (Timed.codec : Codec τ).Refines Timed.codec change) :
    DeploymentCondition.codec.Refines DeploymentCondition.codec (DeploymentCondition.map change) :=
  have hfields :=
    refines_both (refines_optional "lastTransitionTime" h) <|
    refines_both (refines_optional "lastUpdateTime" h) <|
    refines_both (refines_refl (optional "message" text)) <|
    refines_both (refines_refl (optional "reason" text)) <|
    refines_both (refines_refl (required "status" text "")) <|
    refines_refl (required "type" text "")
  refines_object (refines_as hfields (fun _ => rfl) fun _ => rfl)

/-- The same state with other times in its conditions. -/
def DeploymentStatus.map (f : τ → σ) (status : DeploymentStatus τ) : DeploymentStatus σ :=
  { status with conditions := status.conditions.map (List.map (DeploymentCondition.map f)) }

theorem DeploymentStatus.map_id : DeploymentStatus.map (id : τ → τ) = id := by
  funext status
  simp [DeploymentStatus.map, DeploymentCondition.map_id]

theorem DeploymentStatus.settles_codec [Timed τ] {settle : τ → τ}
    (h : (Timed.codec : Codec τ).Settles settle) :
    DeploymentStatus.codec.Settles (DeploymentStatus.map settle) :=
  have hfields :=
    settles_both (lawful_optional "availableReplicas" lawful_int32).settles (by decide) <|
    settles_both (lawful_optional "collisionCount" lawful_int32).settles (by decide) <|
    settles_both (settles_optional "conditions"
      (settles_list (DeploymentCondition.settles_codec h))) (by decide) <|
    settles_both (lawful_optional "observedGeneration" lawful_int64).settles (by decide) <|
    settles_both (lawful_optional "readyReplicas" lawful_int32).settles (by decide) <|
    settles_both (lawful_optional "replicas" lawful_int32).settles (by decide) <|
    settles_both (lawful_optional "unavailableReplicas" lawful_int32).settles (by decide) <|
    (lawful_optional "updatedReplicas" lawful_int32).settles
  settles_object (settles_as hfields fun _ => rfl)

theorem DeploymentStatus.refines_codec [Timed τ] [Timed σ] {change : τ → σ}
    (h : (Timed.codec : Codec τ).Refines Timed.codec change) :
    DeploymentStatus.codec.Refines DeploymentStatus.codec (DeploymentStatus.map change) :=
  have hfields :=
    refines_both (refines_refl (optional "availableReplicas" int32)) <|
    refines_both (refines_refl (optional "collisionCount" int32)) <|
    refines_both
      (refines_optional "conditions" (refines_list (DeploymentCondition.refines_codec h))) <|
    refines_both (refines_refl (optional "observedGeneration" int64)) <|
    refines_both (refines_refl (optional "readyReplicas" int32)) <|
    refines_both (refines_refl (optional "replicas" int32)) <|
    refines_both (refines_refl (optional "unavailableReplicas" int32)) <|
    refines_refl (optional "updatedReplicas" int32)
  refines_object (refines_as hfields (fun _ => rfl) fun _ => rfl)

/-! ## Deployments -/

/-- The same deployment with other times. -/
def Deployment.map (f : τ → σ) (deployment : Deployment τ) : Deployment σ where
  metadata := deployment.metadata.map f
  spec := deployment.spec.map (DeploymentSpec.map f)
  status := deployment.status.map (DeploymentStatus.map f)

theorem Deployment.map_id : Deployment.map (id : τ → τ) = id := by
  funext deployment
  simp [Deployment.map, Metadata.map_id, DeploymentSpec.map_id, DeploymentStatus.map_id]

theorem Deployment.settles_codec [Timed τ] {settle : τ → τ}
    (h : (Timed.codec : Codec τ).Settles settle) :
    Deployment.codec.Settles (Deployment.map settle) :=
  have hfields :=
    settles_both (settles_metadataField h) (by decide) <|
    settles_both (settles_optional "spec" (DeploymentSpec.settles_codec h)) (by decide) <|
    settles_optional "status" (DeploymentStatus.settles_codec h)
  settles_versioned (by decide) (by decide) (settles_as hfields fun _ => rfl)

theorem Deployment.refines_codec [Timed τ] [Timed σ] {change : τ → σ}
    (h : (Timed.codec : Codec τ).Refines Timed.codec change) :
    Deployment.codec.Refines Deployment.codec (Deployment.map change) :=
  have hfields :=
    refines_both (refines_metadataField h) <|
    refines_both (refines_optional "spec" (DeploymentSpec.refines_codec h)) <|
    refines_optional "status" (DeploymentStatus.refines_codec h)
  refines_versioned (refines_as hfields (fun _ => rfl) fun _ => rfl)

/-- Every time of a deployment is a whole second. -/
def Deployment.IsWhole (deployment : Deployment PointInTime) : Prop :=
  deployment.map PointInTime.floor = deployment

theorem Deployment.lawful_codec : Deployment.codec.Lawful :=
  (settles_codec lawful_instant.settles).lawful map_id

end PreviewInstaller.Cluster
