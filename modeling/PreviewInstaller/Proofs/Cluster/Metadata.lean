import PreviewInstaller.Cluster.Metadata
import PreviewInstaller.Proofs.Codec

set_option autoImplicit false

/-! # Laws of metadata

How a codec treats times decides how the codec of all metadata treats its value: it settles the
value with all its times settled, and it refines the codec for coarser times. Dated with instants,
metadata is read as it is written. -/

namespace PreviewInstaller.Cluster

open Codec Fields

variable {τ σ : Type}

/-! ## Fields of a manager -/

/-- The same fields at another time. -/
def ManagedFields.map (f : τ → σ) (fields : ManagedFields τ) : ManagedFields σ :=
  { fields with time := fields.time.map f }

theorem ManagedFields.map_id : ManagedFields.map (id : τ → τ) = id := by
  funext fields
  simp [ManagedFields.map]

theorem ManagedFields.settles_codec [Timed τ] {settle : τ → τ}
    (h : (Timed.codec : Codec τ).Settles settle) :
    ManagedFields.codec.Settles (ManagedFields.map settle) :=
  have hfields :=
    settles_both (lawful_optional "apiVersion" lawful_text).settles (by decide) <|
    settles_both (lawful_optional "fieldsType" lawful_text).settles (by decide) <|
    settles_both (lawful_optional "fieldsV1" lawful_any).settles (by decide) <|
    settles_both (lawful_optional "manager" lawful_text).settles (by decide) <|
    settles_both (lawful_optional "operation" lawful_text).settles (by decide) <|
    settles_both (lawful_optional "subresource" lawful_text).settles (by decide) <|
    settles_optional "time" h
  settles_object (settles_as hfields fun _ => rfl)

theorem ManagedFields.refines_codec [Timed τ] [Timed σ] {change : τ → σ}
    (h : (Timed.codec : Codec τ).Refines Timed.codec change) :
    ManagedFields.codec.Refines ManagedFields.codec (ManagedFields.map change) :=
  have hfields :=
    refines_both (refines_refl (optional "apiVersion" text)) <|
    refines_both (refines_refl (optional "fieldsType" text)) <|
    refines_both (refines_refl (optional "fieldsV1" any)) <|
    refines_both (refines_refl (optional "manager" text)) <|
    refines_both (refines_refl (optional "operation" text)) <|
    refines_both (refines_refl (optional "subresource" text)) <|
    refines_optional "time" h
  refines_object (refines_as hfields (fun _ => rfl) fun _ => rfl)

/-! ## Metadata -/

theorem OwnerReference.lawful_codec : OwnerReference.codec.Lawful :=
  have hfields :=
    lawful_both (lawful_required "apiVersion" lawful_text _) (by decide) <|
    lawful_both (lawful_optional "blockOwnerDeletion" lawful_bool) (by decide) <|
    lawful_both (lawful_optional "controller" lawful_bool) (by decide) <|
    lawful_both (lawful_required "kind" lawful_text _) (by decide) <|
    lawful_both (lawful_required "name" lawful_text _) (by decide) <|
    lawful_required "uid" lawful_text _
  lawful_object (lawful_as hfields fun _ => rfl)

/-- The same metadata with other times. -/
def Metadata.map (f : τ → σ) (metadata : Metadata τ) : Metadata σ :=
  { metadata with
    creationTimestamp := metadata.creationTimestamp.map f
    deletionTimestamp := metadata.deletionTimestamp.map f
    managedFields := metadata.managedFields.map (List.map (ManagedFields.map f)) }

theorem Metadata.map_id : Metadata.map (id : τ → τ) = id := by
  funext metadata
  simp [Metadata.map, ManagedFields.map_id]

theorem Metadata.settles_codec [Timed τ] {settle : τ → τ}
    (h : (Timed.codec : Codec τ).Settles settle) :
    Metadata.codec.Settles (Metadata.map settle) :=
  have hfields :=
    settles_both (lawful_optional "annotations" (lawful_map lawful_text)).settles (by decide) <|
    settles_both (settles_optional "creationTimestamp" h) (by decide) <|
    settles_both (lawful_optional "deletionGracePeriodSeconds" lawful_int64).settles (by decide) <|
    settles_both (settles_optional "deletionTimestamp" h) (by decide) <|
    settles_both (lawful_optional "finalizers" (lawful_list lawful_text)).settles (by decide) <|
    settles_both (lawful_optional "generateName" lawful_text).settles (by decide) <|
    settles_both (lawful_optional "generation" lawful_int64).settles (by decide) <|
    settles_both (lawful_optional "labels" (lawful_map lawful_text)).settles (by decide) <|
    settles_both (settles_optional "managedFields" (settles_list (ManagedFields.settles_codec h)))
      (by decide) <|
    settles_both (lawful_optional "name" lawful_text).settles (by decide) <|
    settles_both (lawful_optional "namespace" lawful_text).settles (by decide) <|
    settles_both (lawful_optional "ownerReferences"
      (lawful_list OwnerReference.lawful_codec)).settles (by decide) <|
    settles_both (lawful_optional "resourceVersion" lawful_text).settles (by decide) <|
    settles_both (lawful_optional "selfLink" lawful_text).settles (by decide) <|
    (lawful_optional "uid" lawful_text).settles
  settles_object (settles_as hfields fun _ => rfl)

theorem Metadata.refines_codec [Timed τ] [Timed σ] {change : τ → σ}
    (h : (Timed.codec : Codec τ).Refines Timed.codec change) :
    Metadata.codec.Refines Metadata.codec (Metadata.map change) :=
  have hfields :=
    refines_both (refines_refl (optional "annotations" (Codec.map text))) <|
    refines_both (refines_optional "creationTimestamp" h) <|
    refines_both (refines_refl (optional "deletionGracePeriodSeconds" int64)) <|
    refines_both (refines_optional "deletionTimestamp" h) <|
    refines_both (refines_refl (optional "finalizers" (list text))) <|
    refines_both (refines_refl (optional "generateName" text)) <|
    refines_both (refines_refl (optional "generation" int64)) <|
    refines_both (refines_refl (optional "labels" (Codec.map text))) <|
    refines_both
      (refines_optional "managedFields" (refines_list (ManagedFields.refines_codec h))) <|
    refines_both (refines_refl (optional "name" text)) <|
    refines_both (refines_refl (optional "namespace" text)) <|
    refines_both (refines_refl (optional "ownerReferences" (list OwnerReference.codec))) <|
    refines_both (refines_refl (optional "resourceVersion" text)) <|
    refines_both (refines_refl (optional "selfLink" text)) <|
    refines_refl (optional "uid" text)
  refines_object (refines_as hfields (fun _ => rfl) fun _ => rfl)

theorem Metadata.lawful_codec : Metadata.codec.Lawful :=
  (settles_codec lawful_instant.settles).lawful map_id

/-! ## Objects -/

theorem settles_metadataField [Timed τ] {settle : τ → τ}
    (h : (Timed.codec : Codec τ).Settles settle) :
    metadataField.Settles ["metadata"] (Metadata.map settle) :=
  settles_required "metadata" (Metadata.settles_codec h) _

theorem lawful_metadataField : metadataField.Lawful ["metadata"] :=
  lawful_required "metadata" Metadata.lawful_codec _

theorem refines_metadataField [Timed τ] [Timed σ] {change : τ → σ}
    (h : (Timed.codec : Codec τ).Refines Timed.codec change) :
    metadataField.Refines metadataField (Metadata.map change) :=
  refines_required "metadata" (Metadata.refines_codec h) {}

section Versioned

variable {α β : Type} {apiVersion kind : String}

/-- Version and kind are read beside fields with other keys. -/
theorem settles_versioned {fields : Fields α} {keys : List String} {settle : α → α}
    (hversion : "apiVersion" ∉ keys) (hkind : "kind" ∉ keys) (h : fields.Settles keys settle) :
    (versioned apiVersion kind fields).Settles settle := by
  have htagged := settles_both (lawful_tag "kind" kind).settles (by simpa using hkind) h
  have hfields := settles_both (lawful_tag "apiVersion" apiVersion).settles
    (by simpa using hversion) htagged
  exact settles_object (settles_as hfields fun _ => rfl)

theorem lawful_versioned {fields : Fields α} {keys : List String}
    (hversion : "apiVersion" ∉ keys) (hkind : "kind" ∉ keys) (h : fields.Lawful keys) :
    (versioned apiVersion kind fields).Lawful :=
  (settles_versioned hversion hkind h.settles).lawful rfl

theorem refines_versioned {fine : Fields α} {coarse : Fields β} {change : α → β}
    (h : fine.Refines coarse change) :
    (versioned apiVersion kind fine).Refines (versioned apiVersion kind coarse) change := by
  have hfields := refines_both (refines_refl (tag "apiVersion" apiVersion)) <|
    refines_both (refines_refl (tag "kind" kind)) h
  exact refines_object (refines_as hfields (fun _ => rfl) fun _ => rfl)

end Versioned

end PreviewInstaller.Cluster
