/-
Requests and the responses to them.

Every field at the top is compiled, run and shaped by itself. One that
fails is null in the response and is listed among the errors; its
neighbours are not affected. A request that is rejected as a whole has no
data.
-/
import PropertyGraphQL.Service.Run

namespace PropertyGraphQL

/-- A request. -/
structure Request where
  text : String
  /-- The name of the operation to run. -/
  operation : Option String
  vars : Dict Json

/-- An error in a response. -/
structure ResponseError where
  message : String
  /-- The places in the text that it is about. -/
  places : List Position
  /-- The keys that lead to the field that it is about. -/
  path : List String
deriving DecidableEq, Repr

/-- A response. -/
inductive Response where
  | rejected (error : ResponseError)
  | answered (data : Dict Json) (errors : List ResponseError)

/-- The member of an object for a list, unless that is empty. -/
def Json.listMember {α : Type} (key : String) (encode : α → Json) (elems : List α) :
    List (String × Json) :=
  if elems.isEmpty then [] else [(key, .arr (elems.map encode))]

namespace ResponseError

/-- The error for a request without operation to run. -/
def ofDocumentError (e : DocumentError) : ResponseError :=
  ⟨e.message, if e.place.line = 0 then [] else [e.place], []⟩

/-- The error for a request that there is no snapshot for. -/
def ofServiceError (e : ServiceError) : ResponseError := ⟨e.publicMessage, [], []⟩

/-- The error for a field that failed. -/
def ofField (key : String) (e : ServiceError) : ResponseError := ⟨e.publicMessage, [], [key]⟩

def toJson (e : ResponseError) : Json :=
  let place (p : Position) : Json := .obj [("line", .int p.line), ("column", .int p.column)]
  .obj ([("message", .str e.message)] ++ Json.listMember "locations" place e.places
    ++ Json.listMember "path" .str e.path)

end ResponseError

namespace Response

def data? : Response → Option (Dict Json)
  | rejected _ => none
  | answered data _ => some data

def errors : Response → List ResponseError
  | rejected error => [error]
  | answered _ errors => errors

def toJson (r : Response) : Json :=
  .obj ((r.data?.map fun data => ("data", Json.obj data)).toList
    ++ Json.listMember "errors" ResponseError.toJson r.errors)

end Response

namespace OperationKind

/-- The type whose fields an operation selects. -/
def rootType : OperationKind → String
  | query => "Query"
  | mutation => "Mutation"

end OperationKind

variable {m : Type → Type} [Monad m]

namespace Operation

/-- The value of a field at the top. -/
def fieldValue (services : Services m) (compiler : Compiler) (o : Operation) (f : RootField) :
    m (Except ServiceError Json) :=
  if f.head.name = "__typename" then pure (.ok (.str o.kind.rootType))
  else
    match compiler.compile (o.kind = .mutation) f o.vars with
    | .error e => pure (.error (.compile e))
    | .ok compiled => do
        match ← services.execute compiled.statement compiled.parameters with
        | .error e => return .error (.database e)
        | .ok rows => return .ok (Row.fieldValue compiled.isList rows)

/-- The data and errors with those of one more field. -/
def addField (key : String) (value : Except ServiceError Json)
    (before : Dict Json × List ResponseError) : Dict Json × List ResponseError :=
  match value with
  | .ok j => (before.1.insert key j, before.2)
  | .error e => (before.1.insert key .null, before.2 ++ [.ofField key e])

/-- The response for the fields at the top, one after the other. -/
def respond (services : Services m) (compiler : Compiler) (o : Operation) : m Response := do
  let (data, errors) ← o.fields.foldlM (fun before f => do
    let value ← o.fieldValue services compiler f
    return addField f.head.responseKey value before) ([], [])
  return .answered data errors

end Operation

namespace Request

/-- Answer a request while no other call is under way. -/
def respond (services : Services m) (settings : ContextSettings) (c : Context) (r : Request) :
    m (Context × Response) := do
  match Operation.parse r.text r.operation r.vars with
  | .error e => return (c, .rejected (.ofDocumentError e))
  | .ok o =>
      let (c, outcome) ← c.run services settings .snapshot
      match outcome with
      | .served s => return (c, ← o.respond services s.compiler)
      | .failed e => return (c, .rejected (.ofServiceError e))
      -- No call for a snapshot ends so.
      | .deleted => return (c, .answered [] [])

end Request

end PropertyGraphQL
