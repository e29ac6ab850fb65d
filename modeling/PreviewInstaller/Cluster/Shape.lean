import PreviewInstaller.Cluster.Metadata

set_option autoImplicit false

/-! # Shapes

A shape is a type of the cluster as data: the fields of an object, each with its key, the shape of
its value and whether it is required. The values of a shape, its zero value and its codec are put
together from those of its parts, so that a large type is a table. -/

namespace PreviewInstaller.Cluster

open Codec Fields

/-! ## Selectors -/

/-- One requirement on a label. -/
structure SelectorRequirement where
  key : String
  operator : String
  values : Option (List String)

/-- The codec of `SelectorRequirement`. -/
def SelectorRequirement.codec : Codec SelectorRequirement :=
  object <| Fields.as
    ((required "key" text "").both <|
      (required "operator" text "").both <|
      optional "values" (list text))
    (fun (a, b, c) => ⟨a, b, c⟩)
    (fun r => (r.key, r.operator, r.values))

/-- Which labels select a pod. -/
structure LabelSelector where
  matchExpressions : Option (List SelectorRequirement) := none
  matchLabels : Option Texts := none

/-- The codec of `LabelSelector`. -/
def LabelSelector.codec : Codec LabelSelector :=
  object <| Fields.as
    ((optional "matchExpressions" (list SelectorRequirement.codec)).both <|
      optional "matchLabels" (map text))
    (fun (a, b) => ⟨a, b⟩)
    (fun s => (s.matchExpressions, s.matchLabels))

/-- A number, or a text that names one or is a share of one. -/
abbrev IntOrText := Int32 ⊕ String

/-- The codec of `IntOrText`. -/
def intOrText : Codec IntOrText :=
  either int32 text

/-! ## Leaves -/

/-- The types that shapes are made of. -/
inductive Leaf where
  | text
  | bool
  | int32
  | int64
  | intOrText
  | texts
  | selector
  | metadata

namespace Leaf

variable {τ : Type}

/-- The values of a leaf. -/
def Value (τ : Type) : Leaf → Type
  | .text => String
  | .bool => Bool
  | .int32 => Int32
  | .int64 => Int64
  | .intOrText => IntOrText
  | .texts => Texts
  | .selector => LabelSelector
  | .metadata => Metadata τ

/-- The value of a leaf that is required and missing. -/
def zero : (leaf : Leaf) → leaf.Value τ
  | .text => ""
  | .bool => false
  | .int32 => (0 : Int32)
  | .int64 => (0 : Int64)
  | .intOrText => .inl (0 : Int32)
  | .texts => TextMap.empty
  | .selector => ({} : LabelSelector)
  | .metadata => ({} : Metadata τ)

/-- The codec of a leaf. -/
def codec [Timed τ] : (leaf : Leaf) → Codec (leaf.Value τ)
  | .text => Codec.text
  | .bool => Codec.bool
  | .int32 => Codec.int32
  | .int64 => Codec.int64
  | .intOrText => Cluster.intOrText
  | .texts => map Codec.text
  | .selector => LabelSelector.codec
  | .metadata => Metadata.codec

end Leaf

/-! ## Shapes and rows -/

mutual

/-- A type of values. -/
inductive Shape where
  | leaf (leaf : Leaf)
  | list (element : Shape)
  | record (row : Row)

/-- The fields of an object, one after the other. -/
inductive Row where
  | done
  | optional (key : String) (shape : Shape) (rest : Row)
  | required (key : String) (shape : Shape) (rest : Row)

end

namespace Shape

/-- Texts. -/
def text : Shape := .leaf .text

/-- Truth values. -/
def bool : Shape := .leaf .bool

/-- Integers of 32 bits. -/
def int32 : Shape := .leaf .int32

/-- Integers of 64 bits. -/
def int64 : Shape := .leaf .int64

/-- Numbers, or texts in their place. -/
def intOrText : Shape := .leaf .intOrText

/-- Maps of texts. -/
def texts : Shape := .leaf .texts

/-- Selectors of labels. -/
def selector : Shape := .leaf .selector

/-- The metadata of an object. -/
def metadata : Shape := .leaf .metadata

end Shape

variable {τ : Type}

mutual

/-- The values of a shape, dated with times of a type. -/
def Shape.Value (τ : Type) : Shape → Type
  | .leaf leaf => leaf.Value τ
  | .list element => List (element.Value τ)
  | .record row => row.Value τ

/-- The values of the fields of a row. -/
def Row.Value (τ : Type) : Row → Type
  | .done => Unit
  | .optional _ shape rest => Option (shape.Value τ) × rest.Value τ
  | .required _ shape rest => shape.Value τ × rest.Value τ

end

mutual

/-- The value of a shape that is required and missing. -/
def Shape.zero : (shape : Shape) → shape.Value τ
  | .leaf leaf => leaf.zero
  | .list _ => []
  | .record row => row.zero

/-- The value of a row of which no field is set. -/
def Row.zero : (row : Row) → row.Value τ
  | .done => ()
  | .optional _ _ rest => (none, rest.zero)
  | .required _ shape rest => (shape.zero, rest.zero)

end

mutual

/-- The codec of a shape. -/
def Shape.codec [Timed τ] : (shape : Shape) → Codec (shape.Value τ)
  | .leaf leaf => leaf.codec
  | .list element => Codec.list element.codec
  | .record row => object row.fields

/-- The fields of a row. -/
def Row.fields [Timed τ] : (row : Row) → Fields (row.Value τ)
  | .done => Fields.empty
  | .optional key shape rest => (Fields.optional key shape.codec).both rest.fields
  | .required key shape rest => (Fields.required key shape.codec shape.zero).both rest.fields

end

end PreviewInstaller.Cluster
