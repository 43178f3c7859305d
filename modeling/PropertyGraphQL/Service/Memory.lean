/-
Services that live in memory: a stored document, and a graph and a database
that answer as they were told to. They remember what was asked of them.
-/
import PropertyGraphQL.Service.Run

namespace PropertyGraphQL

/-- What the store of the document can be asked for. -/
inductive StoreOperation where
  | load
  | save
  | delete
deriving DecidableEq, Repr

/-- Services in memory. -/
structure MemoryServices where
  /-- The time in milliseconds. -/
  time : Nat
  document : Option String
  /-- The operation of the store that fails, and how. -/
  broken : Option (StoreOperation × StoreError)
  fingerprint : Except DatabaseError Int
  samples : Except DatabaseError (List LabelSample)
  /-- The results of the statements to come; of any further one, no rows. -/
  results : List (Except DatabaseError (List Row))
  /-- The number of times that a fingerprint was asked for. -/
  fingerprintCalls : Nat
  /-- The sizes that samples were asked for with. -/
  sampleCalls : List Nat
  /-- The statements run, with their parameters. -/
  executed : List (String × Dict Json)

namespace MemoryServices

/-- Services that know nothing but a document. -/
def ofDocument (document : Option String) : MemoryServices :=
  ⟨0, document, none, .ok 0, .ok [], [], 0, [], []⟩

/-- How an operation of the store fails, if it does. -/
def failure? (s : MemoryServices) (operation : StoreOperation) : Option StoreError :=
  match s.broken with
  | some (failing, e) => if failing = operation then some e else none
  | none => none

/-- Carry out an operation of the store. -/
def storing {α : Type} (s : MemoryServices) (operation : StoreOperation) (result : α)
    (after : MemoryServices) : Except StoreError α × MemoryServices :=
  match s.failure? operation with
  | some e => (.error e, s)
  | none => (.ok result, after)

/-- What is answered, and the services afterwards. -/
def answer (s : MemoryServices) : (need : Need) → need.Answer × MemoryServices
  | .lock => ((), s)
  | .fingerprint => (s.fingerprint, { s with fingerprintCalls := s.fingerprintCalls + 1 })
  | .load => s.storing .load s.document s
  | .save document => s.storing .save () { s with document := some document }
  | .delete => s.storing .delete () { s with document := none }
  | .sample size => (s.samples, { s with sampleCalls := s.sampleCalls ++ [size] })

/-- Run a statement: it takes the next result. -/
def execute (s : MemoryServices) (statement : String) (parameters : Dict Json) :
    Except DatabaseError (List Row) × MemoryServices :=
  (s.results.head?.getD (.ok []),
    { s with results := s.results.tail, executed := s.executed ++ [(statement, parameters)] })

/-- The services as effects on themselves. -/
def services : Services (StateM MemoryServices) where
  clock := return (← get).time
  answer need := fun s => s.answer need
  execute statement parameters := fun s => s.execute statement parameters

end MemoryServices

end PropertyGraphQL
