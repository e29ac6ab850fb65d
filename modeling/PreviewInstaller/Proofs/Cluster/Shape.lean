import PreviewInstaller.Cluster.Shape
import PreviewInstaller.Proofs.Cluster.Metadata

set_option autoImplicit false

/-! # Laws of shapes

What holds for the codec of every leaf holds for the codec of every shape, by induction on the
shape, as long as no two fields of an object have the same key. -/

namespace PreviewInstaller.Cluster

open Codec Fields

variable {τ σ : Type}

/-! ## Selectors -/

theorem SelectorRequirement.lawful_codec : SelectorRequirement.codec.Lawful :=
  have hfields :=
    lawful_both (lawful_required "key" lawful_text _) (by decide) <|
    lawful_both (lawful_required "operator" lawful_text _) (by decide) <|
    lawful_optional "values" (lawful_list lawful_text)
  lawful_object (lawful_as hfields fun _ => rfl)

theorem LabelSelector.lawful_codec : LabelSelector.codec.Lawful :=
  have hfields :=
    lawful_both (lawful_optional "matchExpressions" (lawful_list SelectorRequirement.lawful_codec))
      (by decide) <|
    lawful_optional "matchLabels" (lawful_map lawful_text)
  lawful_object (lawful_as hfields fun _ => rfl)

/-- A number is told from a text by its form. -/
theorem lawful_intOrText : intOrText.Lawful :=
  lawful_either lawful_int32 lawful_text fun _ => rfl

/-! ## Leaves -/

namespace Leaf

/-- The same value with other times. -/
def map (f : τ → σ) : (leaf : Leaf) → leaf.Value τ → leaf.Value σ
  | .text | .bool | .int32 | .int64 | .intOrText | .texts | .selector => id
  | .metadata => Metadata.map f

theorem map_id (leaf : Leaf) : leaf.map (id : τ → τ) = id := by
  cases leaf with
  | metadata => exact Metadata.map_id
  | _ => rfl

theorem map_zero (f : τ → σ) (leaf : Leaf) : leaf.map f leaf.zero = leaf.zero := by
  cases leaf <;> rfl

theorem settles_codec [Timed τ] {settle : τ → τ} (h : (Timed.codec : Codec τ).Settles settle)
    (leaf : Leaf) : leaf.codec.Settles (leaf.map settle) := by
  cases leaf with
  | text => exact lawful_text.settles
  | bool => exact lawful_bool.settles
  | int32 => exact lawful_int32.settles
  | int64 => exact lawful_int64.settles
  | intOrText => exact lawful_intOrText.settles
  | texts => exact (lawful_map lawful_text).settles
  | selector => exact LabelSelector.lawful_codec.settles
  | metadata => exact Metadata.settles_codec h

theorem refines_codec [Timed τ] [Timed σ] {change : τ → σ}
    (h : (Timed.codec : Codec τ).Refines Timed.codec change) (leaf : Leaf) :
    leaf.codec.Refines leaf.codec (leaf.map change) := by
  cases leaf with
  | metadata => exact Metadata.refines_codec h
  | _ => exact refines_refl _

end Leaf

/-! ## Shapes and rows -/

mutual

/-- The same value with other times. -/
def Shape.map (f : τ → σ) : (shape : Shape) → shape.Value τ → shape.Value σ
  | .leaf leaf => leaf.map f
  | .list element => List.map (element.map f)
  | .record row => row.map f

/-- The same values of fields with other times. -/
def Row.map (f : τ → σ) : (row : Row) → row.Value τ → row.Value σ
  | .done => id
  | .optional _ shape rest => Prod.map (Option.map (shape.map f)) (rest.map f)
  | .required _ shape rest => Prod.map (shape.map f) (rest.map f)

end

mutual

theorem Shape.map_id : (shape : Shape) → shape.map (id : τ → τ) = id
  | .leaf leaf => leaf.map_id
  | .list element => (congrArg List.map element.map_id).trans List.map_id_fun
  | .record row => row.map_id

theorem Row.map_id : (row : Row) → row.map (id : τ → τ) = id
  | .done => rfl
  | .optional _ shape rest => by
    rw [Row.map, shape.map_id, rest.map_id, Option.map_id]
    exact Prod.map_id
  | .required _ shape rest => by
    rw [Row.map, shape.map_id, rest.map_id]
    exact Prod.map_id

end

mutual

theorem Shape.map_zero (f : τ → σ) : (shape : Shape) → shape.map f shape.zero = shape.zero
  | .leaf leaf => leaf.map_zero f
  | .list _ => rfl
  | .record row => row.map_zero f

theorem Row.map_zero (f : τ → σ) : (row : Row) → row.map f row.zero = row.zero
  | .done => rfl
  | .optional _ _ rest => congrArg (Prod.mk none) (rest.map_zero f)
  | .required _ shape rest => congrArg₂ Prod.mk (shape.map_zero f) (rest.map_zero f)

end

/-- The keys of a row. -/
def Row.keys : Row → List String
  | .done => []
  | .optional key _ rest | .required key _ rest => key :: rest.keys

mutual

/-- Whether no two fields of an object have the same key, at any depth. -/
def Shape.isProper : Shape → Bool
  | .leaf _ => true
  | .list element => element.isProper
  | .record row => row.isProper

/-- Whether no two fields have the same key, at any depth. -/
def Row.isProper : Row → Bool
  | .done => true
  | .optional key shape rest | .required key shape rest =>
    !rest.keys.contains key && shape.isProper && rest.isProper

end

mutual

theorem Shape.settles_codec [Timed τ] {settle : τ → τ}
    (h : (Timed.codec : Codec τ).Settles settle) :
    (shape : Shape) → shape.isProper = true → shape.codec.Settles (shape.map settle)
  | .leaf leaf, _ => leaf.settles_codec h
  | .list element, hproper => settles_list (element.settles_codec h hproper)
  | .record row, hproper => settles_object (row.settles_fields h hproper)

theorem Row.settles_fields [Timed τ] {settle : τ → τ}
    (h : (Timed.codec : Codec τ).Settles settle) :
    (row : Row) → row.isProper = true → row.fields.Settles row.keys (row.map settle)
  | .done, _ => lawful_empty.settles
  | .optional key shape rest, hproper => by
    obtain ⟨⟨hkey, hshape⟩, hrest⟩ := by simpa [Row.isProper] using hproper
    exact settles_both (settles_optional key (shape.settles_codec h hshape)) (by simpa using hkey)
      (rest.settles_fields h hrest)
  | .required key shape rest, hproper => by
    obtain ⟨⟨hkey, hshape⟩, hrest⟩ := by simpa [Row.isProper] using hproper
    exact settles_both (settles_required key (shape.settles_codec h hshape) shape.zero)
      (by simpa using hkey) (rest.settles_fields h hrest)

end

mutual

theorem Shape.refines_codec [Timed τ] [Timed σ] {change : τ → σ}
    (h : (Timed.codec : Codec τ).Refines Timed.codec change) :
    (shape : Shape) → shape.codec.Refines shape.codec (shape.map change)
  | .leaf leaf => leaf.refines_codec h
  | .list element => refines_list (element.refines_codec h)
  | .record row => refines_object (row.refines_fields h)

theorem Row.refines_fields [Timed τ] [Timed σ] {change : τ → σ}
    (h : (Timed.codec : Codec τ).Refines Timed.codec change) :
    (row : Row) → row.fields.Refines row.fields (row.map change)
  | .done => refines_refl _
  | .optional key shape rest =>
    refines_both (refines_optional key (shape.refines_codec h)) (rest.refines_fields h)
  | .required key shape rest => by
    have hfield := refines_required key (shape.refines_codec h) shape.zero
    rw [shape.map_zero] at hfield
    exact refines_both hfield (rest.refines_fields h)

end

end PreviewInstaller.Cluster
