/-
The catalog of a graph, from samples of its nodes.

Every label becomes a type. A property has the type of its value on the
node sampled last that has one; a relationship becomes a field named
`TYPE_Label` if it points outward and `Label_TYPE` if it points inward.
-/
import PropertyGraphQL.Model.Catalog

namespace PropertyGraphQL

/-- The relationships of one type and direction on a sampled node. -/
structure SampledRelationship where
  relationshipType : String
  direction : Direction
  /-- The labels of the node at the other end of the first of them. -/
  otherLabels : List String
  /-- Whether there are several. -/
  multiple : Bool

structure SampledNode where
  labels : List String
  properties : Dict Json
  relationships : List SampledRelationship

/-- Nodes with a label. -/
structure LabelSample where
  label : String
  /-- The properties that a constraint keeps unique. -/
  uniqueProperties : List String
  nodes : List SampledNode

/-- The number of nodes taken into account for a label. -/
def sampleSize : Nat := 10

/-- The type of a property with the given value. -/
def FieldType.ofJson : Json → FieldType
  | .bool _ => .named "Boolean" .boolean
  | .float _ => .named "Float" .float
  | .int _ => .named "Long" .int
  | .arr [] => (scalar "String").list
  | .arr (first :: _) => (FieldType.ofJson first).list
  | _ => .scalar "String"

namespace SampledRelationship

/-- The field for a relationship to nodes with a label. -/
def field (r : SampledRelationship) (otherLabel : String) : RelationshipField :=
  let name :=
    match r.direction with
    | .outgoing => r.relationshipType ++ "_" ++ otherLabel
    | .incoming => otherLabel ++ "_" ++ r.relationshipType
  .plain name ⟨r.direction, r.relationshipType, otherLabel⟩ r.multiple

/-- The fields for a relationship, one for each label at the other end. -/
def fields (r : SampledRelationship) : List RelationshipField :=
  r.otherLabels.map r.field

end SampledRelationship

namespace LabelSample

/-- The nodes taken into account. -/
def considered (s : LabelSample) : List SampledNode := s.nodes.take sampleSize

/-- The values of properties that are not null, in the order of their first
occurrence, later ones replacing earlier ones. -/
def values (s : LabelSample) : Dict Json :=
  Dict.ofEntries (s.considered.flatMap fun n => n.properties.filter fun entry => !entry.2.isNull)

/-- The property for a value. -/
def property (s : LabelSample) (name : String) (value : Json) : PropertyField :=
  { PropertyField.plain name (.ofJson value) with unique := s.uniqueProperties.contains name }

/-- The type for a label. -/
def entityType (s : LabelSample) : Except ModelError EntityType := do
  let t := (s.considered.flatMap (·.labels)).foldl EntityType.addLabel (.blank s.label)
  let t ← s.values.foldlM (fun t (name, value) => t.addProperty (s.property name value)) t
  let identifying := s.uniqueProperties.filter t.properties.contains
  let t := identifying.foldl (fun t name => (t.registerIdProperty name).2) t
  let fields := s.considered.flatMap fun n => n.relationships.flatMap SampledRelationship.fields
  fields.foldlM EntityType.mergeRelationship t

end LabelSample

/-- The catalog of a graph with the given samples. -/
def Catalog.ofSamples (samples : List LabelSample) : Except ModelError Catalog :=
  samples.foldlM (fun c s => do c.addType (← s.entityType)) .empty

end PropertyGraphQL
