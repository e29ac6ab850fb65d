import PreviewInstaller.Cluster.Pod

set_option autoImplicit false

/-! # Deployments

A deployment keeps a number of replicas of a pod running. Its specification holds the template of
the pods, the selector that finds them and the way they are replaced. -/

namespace PreviewInstaller.Cluster

open Codec Fields

variable {τ : Type} [Timed τ]

/-! ## Strategies -/

/-- How far a rolling update may go at a time. -/
structure RollingUpdate where
  maxSurge : Option IntOrText
  maxUnavailable : Option IntOrText

/-- The codec of `RollingUpdate`. -/
def RollingUpdate.codec : Codec RollingUpdate :=
  object <| Fields.as
    ((optional "maxSurge" intOrText).both <| optional "maxUnavailable" intOrText)
    (fun (a, b) => ⟨a, b⟩)
    (fun u => (u.maxSurge, u.maxUnavailable))

/-- How pods are replaced. -/
structure Strategy where
  rollingUpdate : Option RollingUpdate
  type : Option String

/-- The codec of `Strategy`. -/
def Strategy.codec : Codec Strategy :=
  object <| Fields.as
    ((optional "rollingUpdate" RollingUpdate.codec).both <| optional "type" text)
    (fun (a, b) => ⟨a, b⟩)
    (fun s => (s.rollingUpdate, s.type))

/-! ## Templates of pods -/

/-- The template of pods. -/
structure PodTemplate (τ : Type := Instant) where
  metadata : Option (Metadata τ) := none
  spec : Option (PodSpec τ) := none

/-- The codec of `PodTemplate`. -/
def PodTemplate.codec : Codec (PodTemplate τ) :=
  object <| Fields.as
    ((optional "metadata" Metadata.codec).both <| optional "spec" PodSpec.codec)
    (fun (a, b) => ⟨a, b⟩)
    (fun t => (t.metadata, t.spec))

/-! ## Deployments -/

/-- What is wanted of a deployment. -/
structure DeploymentSpec (τ : Type := Instant) where
  minReadySeconds : Option Int32 := none
  paused : Option Bool := none
  progressDeadlineSeconds : Option Int32 := none
  replicas : Option Int32 := none
  revisionHistoryLimit : Option Int32 := none
  selector : LabelSelector := {}
  strategy : Option Strategy := none
  template : PodTemplate τ := {}

/-- The codec of `DeploymentSpec`. -/
def DeploymentSpec.codec : Codec (DeploymentSpec τ) :=
  object <| Fields.as
    ((optional "minReadySeconds" int32).both <|
      (optional "paused" bool).both <|
      (optional "progressDeadlineSeconds" int32).both <|
      (optional "replicas" int32).both <|
      (optional "revisionHistoryLimit" int32).both <|
      (required "selector" LabelSelector.codec {}).both <|
      (optional "strategy" Strategy.codec).both <|
      required "template" PodTemplate.codec {})
    (fun (a, b, c, d, e, f, g, h) => ⟨a, b, c, d, e, f, g, h⟩)
    (fun s => (s.minReadySeconds, s.paused, s.progressDeadlineSeconds, s.replicas,
      s.revisionHistoryLimit, s.selector, s.strategy, s.template))

/-- A condition that a deployment is in. -/
structure DeploymentCondition (τ : Type := Instant) where
  lastTransitionTime : Option τ
  lastUpdateTime : Option τ
  message : Option String
  reason : Option String
  status : String
  type : String

/-- The codec of `DeploymentCondition`. -/
def DeploymentCondition.codec : Codec (DeploymentCondition τ) :=
  object <| Fields.as
    ((optional "lastTransitionTime" Timed.codec).both <|
      (optional "lastUpdateTime" Timed.codec).both <|
      (optional "message" text).both <|
      (optional "reason" text).both <|
      (required "status" text "").both <|
      required "type" text "")
    (fun (a, b, c, d, e, f) => ⟨a, b, c, d, e, f⟩)
    (fun c => (c.lastTransitionTime, c.lastUpdateTime, c.message, c.reason, c.status, c.type))

/-- The state of a deployment. -/
structure DeploymentStatus (τ : Type := Instant) where
  availableReplicas : Option Int32
  collisionCount : Option Int32
  conditions : Option (List (DeploymentCondition τ))
  observedGeneration : Option Int64
  readyReplicas : Option Int32
  replicas : Option Int32
  unavailableReplicas : Option Int32
  updatedReplicas : Option Int32

/-- The codec of `DeploymentStatus`. -/
def DeploymentStatus.codec : Codec (DeploymentStatus τ) :=
  object <| Fields.as
    ((optional "availableReplicas" int32).both <|
      (optional "collisionCount" int32).both <|
      (optional "conditions" (list DeploymentCondition.codec)).both <|
      (optional "observedGeneration" int64).both <|
      (optional "readyReplicas" int32).both <|
      (optional "replicas" int32).both <|
      (optional "unavailableReplicas" int32).both <|
      optional "updatedReplicas" int32)
    (fun (a, b, c, d, e, f, g, h) => ⟨a, b, c, d, e, f, g, h⟩)
    (fun s => (s.availableReplicas, s.collisionCount, s.conditions, s.observedGeneration,
      s.readyReplicas, s.replicas, s.unavailableReplicas, s.updatedReplicas))

/-- A deployment. -/
structure Deployment (τ : Type := Instant) where
  metadata : Metadata τ := {}
  spec : Option (DeploymentSpec τ) := none
  status : Option (DeploymentStatus τ) := none

/-- The codec of `Deployment`. -/
def Deployment.codec : Codec (Deployment τ) :=
  versioned "apps/v1" "Deployment" <| Fields.as
    (metadataField.both <|
      (optional "spec" DeploymentSpec.codec).both <|
      optional "status" DeploymentStatus.codec)
    (fun (a, b, c) => ⟨a, b, c⟩)
    (fun d => (d.metadata, d.spec, d.status))

end PreviewInstaller.Cluster
