import PreviewInstaller.Cluster.Object
import PreviewInstaller.Proofs.Cluster.Metadata

set_option autoImplicit false

/-! # Laws of namespaces, secrets and configuration maps

The codec of each of them reads what it writes: its fields have different keys. -/

namespace PreviewInstaller.Cluster

open Codec Fields

/-! ## Namespaces -/

theorem NamespaceCondition.lawful_codec : NamespaceCondition.codec.Lawful :=
  have hfields :=
    lawful_both (lawful_optional "lastTransitionTime" lawful_instant) (by decide) <|
    lawful_both (lawful_optional "message" lawful_text) (by decide) <|
    lawful_both (lawful_optional "reason" lawful_text) (by decide) <|
    lawful_both (lawful_required "status" lawful_text _) (by decide) <|
    lawful_required "type" lawful_text _
  lawful_object (lawful_as hfields fun _ => rfl)

theorem NamespaceSpec.lawful_codec : NamespaceSpec.codec.Lawful :=
  lawful_object (lawful_as (lawful_optional "finalizers" (lawful_list lawful_text)) fun _ => rfl)

theorem NamespaceStatus.lawful_codec : NamespaceStatus.codec.Lawful :=
  have hfields :=
    lawful_both
      (lawful_optional "conditions" (lawful_list NamespaceCondition.lawful_codec)) (by decide) <|
    lawful_optional "phase" lawful_text
  lawful_object (lawful_as hfields fun _ => rfl)

theorem Namespace.lawful_codec : Namespace.codec.Lawful :=
  have hfields :=
    lawful_both lawful_metadataField (by decide) <|
    lawful_both (lawful_optional "spec" NamespaceSpec.lawful_codec) (by decide) <|
    lawful_optional "status" NamespaceStatus.lawful_codec
  lawful_versioned (by decide) (by decide) (lawful_as hfields fun _ => rfl)

/-! ## Secrets and configuration maps -/

theorem Secret.lawful_codec : Secret.codec.Lawful :=
  have hfields :=
    lawful_both (lawful_optional "data" (lawful_map lawful_bytes)) (by decide) <|
    lawful_both (lawful_optional "immutable" lawful_bool) (by decide) <|
    lawful_both lawful_metadataField (by decide) <|
    lawful_both (lawful_optional "stringData" (lawful_map lawful_text)) (by decide) <|
    lawful_optional "type" lawful_text
  lawful_versioned (by decide) (by decide) (lawful_as hfields fun _ => rfl)

theorem ConfigMap.lawful_codec : ConfigMap.codec.Lawful :=
  have hfields :=
    lawful_both (lawful_optional "binaryData" (lawful_map lawful_bytes)) (by decide) <|
    lawful_both (lawful_optional "data" (lawful_map lawful_text)) (by decide) <|
    lawful_both (lawful_optional "immutable" lawful_bool) (by decide) <|
    lawful_metadataField
  lawful_versioned (by decide) (by decide) (lawful_as hfields fun _ => rfl)

end PreviewInstaller.Cluster
