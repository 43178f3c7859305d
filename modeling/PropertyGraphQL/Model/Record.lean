/-
The JSON form of a catalog.

Every structure is an object with its fields in order, what is absent
being null; a kind or direction is its name. `Catalog.ofJson?` reads what
`Catalog.toJson` writes, and also takes objects whose nullable members are
missing. `Catalog.same` is the equality of catalogs as data.
-/
import PropertyGraphQL.Model.Catalog

namespace PropertyGraphQL

namespace Json

/-- A value that may be absent. -/
def ofOption {α : Type} (encode : α → Json) : Option α → Json
  | some a => encode a
  | none => .null

/-- A dictionary as an object. -/
def ofDict {α : Type} (encode : α → Json) (d : Dict α) : Json := .obj (d.mapValues encode)

/-- The member with the key, decoded. -/
def require? {α : Type} (decode : Json → Option α) (j : Json) (key : String) : Option α :=
  (j.member? key).bind decode

/-- The member with the key, decoded, if it is there and not null. -/
def allow? {α : Type} (decode : Json → Option α) (j : Json) (key : String) :
    Option (Option α) :=
  match j.member? key with
  | none => some none
  | some .null => some none
  | some v => (decode v).map some

/-- An array of texts. -/
def asStrings? (j : Json) : Option (List String) :=
  j.asArray?.bind (·.mapM asString?)

/-- An object as a dictionary. -/
def asDict? {α : Type} (decode : Json → Option α) (j : Json) : Option (Dict α) := do
  let members ← j.asObject?
  let decoded ← members.mapM fun (k, v) => (k, ·) <$> decode v
  return Dict.ofEntries decoded

/-- An integer from 0 to 255. -/
def asByte? : Json → Option Nat
  | .int n => if 0 ≤ n ∧ n ≤ 255 then some n.toNat else none
  | _ => none

end Json

namespace Dict

variable {α : Type}

/-- Equality of dictionaries without regard to order. -/
def sameBy (same : α → α → Bool) (d e : Dict α) : Bool :=
  d.length == e.length && d.all fun (k, a) =>
    match e.get? k with
    | some b => same a b
    | none => false

end Dict

/-- Equality of what may be absent. -/
def sameOption {α : Type} (same : α → α → Bool) : Option α → Option α → Bool
  | some a, some b => same a b
  | none, none => true
  | _, _ => false

namespace Kind

/-- The name of a kind in data. -/
def name : Kind → String
  | boolean => "Boolean"
  | int => "Int"
  | float => "Float"
  | string => "String"
  | id => "Id"
  | enum => "Enum"
  | custom => "Custom"
  | object => "Object"

def ofName? : String → Option Kind
  | "Boolean" => some boolean
  | "Int" => some int
  | "Float" => some float
  | "String" => some string
  | "Id" => some id
  | "Enum" => some enum
  | "Custom" => some custom
  | "Object" => some object
  | _ => none

theorem ofName?_name (k : Kind) : ofName? k.name = some k := by
  cases k <;> rfl

end Kind

namespace FieldType

def toJson (t : FieldType) : Json :=
  .obj [("name", .str t.name), ("array", .bool t.isList), ("non_null_depth", .int t.nonNullDepth),
    ("required", .bool t.required), ("kind", .str t.kind.name)]

def ofJson? (j : Json) : Option FieldType := do
  return { name := ← j.require? Json.asString? "name"
           isList := ← j.require? Json.asBool? "array"
           nonNullDepth := ← j.require? Json.asByte? "non_null_depth"
           required := ← j.require? Json.asBool? "required"
           kind := ← Kind.ofName? (← j.require? Json.asString? "kind") }

end FieldType

namespace CustomStatement

def toJson (s : CustomStatement) : Json :=
  .obj [("statement", .str s.statement), ("static_params", .obj s.staticParameters),
    ("pass_through", .bool s.passThrough)]

def ofJson? (j : Json) : Option CustomStatement := do
  return { statement := ← j.require? Json.asString? "statement"
           staticParameters := ← j.require? (Json.asDict? some) "static_params"
           passThrough := ← j.require? Json.asBool? "pass_through" }

def same (s t : CustomStatement) : Bool :=
  s.statement == t.statement && s.staticParameters.sameBy Json.same t.staticParameters
    && s.passThrough == t.passThrough

end CustomStatement

namespace DeclaredArgument

def toJson (a : DeclaredArgument) : Json :=
  .obj [("name", .str a.name), ("param_type", a.type.toJson),
    ("default_value", .ofOption id a.default), ("description", .ofOption .str a.description)]

def ofJson? (j : Json) : Option DeclaredArgument := do
  return { name := ← j.require? Json.asString? "name"
           type := ← j.require? FieldType.ofJson? "param_type"
           default := ← j.allow? some "default_value"
           description := ← j.allow? Json.asString? "description" }

def same (a b : DeclaredArgument) : Bool :=
  a.name == b.name && a.type == b.type && sameOption Json.same a.default b.default
    && a.description == b.description

end DeclaredArgument

namespace PropertyField

def toJson (p : PropertyField) : Json :=
  .obj [("field_name", .str p.name), ("property_type", p.type.toJson), ("unique", .bool p.unique),
    ("default_value", .ofOption id p.default), ("description", .ofOption .str p.description),
    ("custom_query", .ofOption CustomStatement.toJson p.custom),
    ("parameters", .ofDict DeclaredArgument.toJson p.arguments)]

def ofJson? (j : Json) : Option PropertyField := do
  return { name := ← j.require? Json.asString? "field_name"
           type := ← j.require? FieldType.ofJson? "property_type"
           unique := ← j.require? Json.asBool? "unique"
           default := ← j.allow? some "default_value"
           description := ← j.allow? Json.asString? "description"
           custom := ← j.allow? CustomStatement.ofJson? "custom_query"
           arguments := ← j.require? (Json.asDict? DeclaredArgument.ofJson?) "parameters" }

def same (p q : PropertyField) : Bool :=
  p.name == q.name && p.type == q.type && p.unique == q.unique
    && sameOption Json.same p.default q.default && p.description == q.description
    && sameOption CustomStatement.same p.custom q.custom
    && p.arguments.sameBy DeclaredArgument.same q.arguments

end PropertyField

namespace RelationshipField

def toJson (r : RelationshipField) : Json :=
  .obj [("field_name", .str r.name), ("relationship_type", .str r.shape.relationshipType),
    ("target_type", .str r.shape.targetType), ("direction", .str r.shape.direction.shortName),
    ("multi", .bool r.multi), ("non_null_depth", .int r.nonNullDepth),
    ("description", .ofOption .str r.description),
    ("custom_query", .ofOption CustomStatement.toJson r.custom),
    ("parameters", .ofDict DeclaredArgument.toJson r.arguments)]

def ofJson? (j : Json) : Option RelationshipField := do
  let shape : RelationshipShape :=
    { relationshipType := ← j.require? Json.asString? "relationship_type"
      targetType := ← j.require? Json.asString? "target_type"
      direction := ← Direction.ofShortName? (← j.require? Json.asString? "direction") }
  return { name := ← j.require? Json.asString? "field_name"
           shape
           multi := ← j.require? Json.asBool? "multi"
           nonNullDepth := ← j.require? Json.asByte? "non_null_depth"
           description := ← j.allow? Json.asString? "description"
           custom := ← j.allow? CustomStatement.ofJson? "custom_query"
           arguments := ← j.require? (Json.asDict? DeclaredArgument.ofJson?) "parameters" }

def same (r s : RelationshipField) : Bool :=
  r.name == s.name && r.shape == s.shape && r.multi == s.multi
    && r.nonNullDepth == s.nonNullDepth && r.description == s.description
    && sameOption CustomStatement.same r.custom s.custom
    && r.arguments.sameBy DeclaredArgument.same s.arguments

end RelationshipField

namespace EntityType

def toJson (t : EntityType) : Json :=
  .obj [("type_name", .str t.name), ("labels", .arr (t.labels.map .str)),
    ("is_interface", .bool t.isInterface),
    ("properties", .ofDict PropertyField.toJson t.properties),
    ("relationships", .ofDict RelationshipField.toJson t.relationships),
    ("id_property", .ofOption .str t.idProperty), ("description", .ofOption .str t.description)]

def ofJson? (j : Json) : Option EntityType := do
  return { name := ← j.require? Json.asString? "type_name"
           labels := (← j.require? Json.asStrings? "labels").eraseDups
           isInterface := ← j.require? Json.asBool? "is_interface"
           properties := ← j.require? (Json.asDict? PropertyField.ofJson?) "properties"
           relationships := ← j.require? (Json.asDict? RelationshipField.ofJson?) "relationships"
           idProperty := ← j.allow? Json.asString? "id_property"
           description := ← j.allow? Json.asString? "description" }

def same (t u : EntityType) : Bool :=
  t.name == u.name
    && t.labels.length == u.labels.length && t.labels.all u.labels.contains
    && t.isInterface == u.isInterface
    && t.properties.sameBy PropertyField.same u.properties
    && t.relationships.sameBy RelationshipField.same u.relationships
    && t.idProperty == u.idProperty && t.description == u.description

end EntityType

namespace RootOperation

def toJson (o : RootOperation) : Json :=
  .obj [("name", .str o.name), ("return_type", o.returnType.toJson),
    ("custom_query", .ofOption CustomStatement.toJson o.custom),
    ("parameters", .ofDict DeclaredArgument.toJson o.arguments),
    ("description", .ofOption .str o.description)]

def ofJson? (j : Json) : Option RootOperation := do
  return { name := ← j.require? Json.asString? "name"
           returnType := ← j.require? FieldType.ofJson? "return_type"
           custom := ← j.allow? CustomStatement.ofJson? "custom_query"
           arguments := ← j.require? (Json.asDict? DeclaredArgument.ofJson?) "parameters"
           description := ← j.allow? Json.asString? "description" }

def same (o p : RootOperation) : Bool :=
  o.name == p.name && o.returnType == p.returnType
    && sameOption CustomStatement.same o.custom p.custom
    && o.arguments.sameBy DeclaredArgument.same p.arguments && o.description == p.description

end RootOperation

namespace Catalog

def toJson (c : Catalog) : Json :=
  .obj [("types", .ofDict EntityType.toJson c.types),
    ("enums", .ofDict (fun values => .arr (values.map .str)) c.enums),
    ("queries", .ofDict RootOperation.toJson c.queries),
    ("mutations", .ofDict RootOperation.toJson c.mutations)]

def ofJson? (j : Json) : Option Catalog := do
  return { types := ← j.require? (Json.asDict? EntityType.ofJson?) "types"
           enums := ← j.require? (Json.asDict? Json.asStrings?) "enums"
           queries := ← j.require? (Json.asDict? RootOperation.ofJson?) "queries"
           mutations := ← j.require? (Json.asDict? RootOperation.ofJson?) "mutations" }

/-- Equality of catalogs: the order of what is in them does not count. -/
def same (c d : Catalog) : Bool :=
  c.types.sameBy EntityType.same d.types && c.enums.sameBy (· == ·) d.enums
    && c.queries.sameBy RootOperation.same d.queries
    && c.mutations.sameBy RootOperation.same d.mutations

end Catalog

end PropertyGraphQL
