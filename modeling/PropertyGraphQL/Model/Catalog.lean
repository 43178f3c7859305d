/-
Catalogs: everything known about a schema.
-/
import PropertyGraphQL.Model.EntityType

namespace PropertyGraphQL

/-- A field of the query or mutation root that the schema declares. -/
structure RootOperation where
  name : String
  returnType : FieldType
  custom : Option CustomStatement
  arguments : Dict DeclaredArgument
  description : Option String

/-- Everything known about a schema. -/
structure Catalog where
  types : Dict EntityType
  /-- The values of each enum. -/
  enums : Dict (List String)
  queries : Dict RootOperation
  mutations : Dict RootOperation

namespace Catalog

def empty : Catalog := ⟨[], [], [], []⟩

def type? (c : Catalog) (name : String) : Option EntityType := c.types.get? name

def isEnum (c : Catalog) (name : String) : Bool := c.enums.contains name

/-- Add a type whose name no other has. -/
def addType (c : Catalog) (t : EntityType) : Except ModelError Catalog :=
  if c.types.contains t.name then .error (.duplicateType t.name)
  else .ok { c with types := c.types.insert t.name t }

end Catalog

end PropertyGraphQL
