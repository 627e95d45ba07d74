import CatalogSearch.Criteria.Marker

/-!
# Search descriptors

A descriptor type declares fields with annotations, some of which are markers.  A type is known by
its key: two declarations with one key are the same type.  Besides declared types there are values
that no intents can be read from.  An instance is a type with the attributes that can be read on it.
-/

set_option autoImplicit false

namespace CatalogSearch.Criteria

inductive Annotation where
  | marker (m : Marker)
  | other
  deriving DecidableEq, Repr

structure Field where
  name : String
  annotations : List Annotation
  default : Option Value

/-- A declared type; the annotations of an unresolvable declaration cannot be read. -/
structure Declaration where
  key : Nat
  name : String
  fields : List Field
  resolvable : Bool

inductive DescriptorType where
  | declared (d : Declaration)
  | foreign (shown : String)
  | unhashable (kind : String)

inductive AnnotationSpec where
  | marker (spec : MarkerSpec)
  | other

structure FieldSpec where
  name : String
  annotations : List AnnotationSpec
  default : Option Value
  resolvable : Bool

def AnnotationSpec.annotation? : AnnotationSpec → Except MarkerError Annotation
  | .marker spec => do
      let m ← spec.marker?
      return .marker m
  | .other => .ok .other

def annotationsOf? : List AnnotationSpec → Except MarkerError (List Annotation)
  | [] => .ok []
  | spec :: rest => do
      let annotation ← spec.annotation?
      let annotations ← annotationsOf? rest
      return annotation :: annotations

def FieldSpec.field? (spec : FieldSpec) : Except MarkerError Field := do
  let annotations ← annotationsOf? spec.annotations
  return ⟨spec.name, annotations, spec.default⟩

def fieldsOf? : List FieldSpec → Except MarkerError (List Field)
  | [] => .ok []
  | spec :: rest => do
      let field ← spec.field?
      let fields ← fieldsOf? rest
      return field :: fields

def Declaration.ofFields? (key : Nat) (name : String) (specs : List FieldSpec) :
    Except MarkerError Declaration := do
  let fields ← fieldsOf? specs
  return ⟨key, name, fields, specs.all (·.resolvable)⟩

structure Instance where
  type : DescriptorType
  attributes : List (String × Value)

def DescriptorType.fields : DescriptorType → List Field
  | .declared d => d.fields
  | _ => []

def defaultsOf : List Field → List (String × Value)
  | [] => []
  | f :: rest =>
      match f.default with
      | some v => (f.name, v) :: defaultsOf rest
      | none => defaultsOf rest

def Instance.ofValues (type : DescriptorType) (values : List (String × Value)) : Instance :=
  ⟨type, values ++ defaultsOf type.fields⟩

def Instance.read? (i : Instance) (field : String) : Option Value := i.attributes.lookup field

end CatalogSearch.Criteria
