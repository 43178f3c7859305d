/-
What can go wrong while requests are answered, and what of it is told to
whoever made the request.

Errors of the database and of the store may show data or statements. The
public message of each is the same, whatever it says
(`publicMessage_database`, `publicMessage_store`).
-/
import PropertyGraphQL.Compile.Error
import PropertyGraphQL.Model.SchemaError
import PropertyGraphQL.Request.Operation

namespace PropertyGraphQL

/-- An error of the database. -/
inductive DatabaseError where
  | connection (problem : String)
  | statement (problem : String)
deriving DecidableEq, Repr

namespace DatabaseError

def message : DatabaseError → String
  | connection problem => "Database connection failed: " ++ problem
  | statement problem => "Statement failed: " ++ problem

end DatabaseError

/-- An error of the store of the schema document. -/
structure StoreError where
  message : String
deriving DecidableEq, Repr

/-- What can go wrong while requests are answered. -/
inductive ServiceError where
  | compile (error : CompileError)
  | document (error : DocumentError)
  | database (error : DatabaseError)
  | schema (error : SchemaError)
  | model (error : ModelError)
  | store (error : StoreError)
deriving DecidableEq, Repr

namespace ServiceError

def message : ServiceError → String
  | compile error => error.message
  | document error => error.message
  | database error => "Statement execution failed: " ++ error.message
  | schema error => "Invalid schema: " ++ error.message
  | model error => "Inconsistent graph schema: " ++ error.message
  | store error => "Schema storage failed: " ++ error.message

/-- The message for whoever made the request. -/
def publicMessage : ServiceError → String
  | compile error => message (compile error)
  | document error => message (document error)
  | schema error => message (schema error)
  | _ => "Operation failed"

theorem publicMessage_database (e e' : DatabaseError) :
    (database e).publicMessage = (database e').publicMessage := rfl

theorem publicMessage_store (e e' : StoreError) :
    (store e).publicMessage = (store e').publicMessage := rfl

end ServiceError

end PropertyGraphQL
