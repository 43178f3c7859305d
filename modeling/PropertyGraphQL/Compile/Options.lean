/-
How statements are written.
-/
import PropertyGraphQL.Text.Case

namespace PropertyGraphQL

/-- The shape of statements. -/
inductive Dialect where
  /-- One `OPTIONAL MATCH` for each relationship, whose matches are
  collected before the statement goes on. -/
  | staged
  /-- One `RETURN` with nested comprehensions. -/
  | comprehension
deriving DecidableEq, Repr

namespace Dialect

/-- The dialect that a word names, in letters of either case. -/
def ofWord? (word : String) : Option Dialect :=
  match Text.lowercase word with
  | "staged" => some staged
  | "comprehension" => some comprehension
  | _ => none

end Dialect

/-- How statements are written. -/
structure CompileOptions where
  dialect : Dialect
  /-- The function that runs a statement: its arguments are the statement,
  a map of parameters, and whether a list is wanted. -/
  runFunction : String
  /-- The function that sorts a list: its arguments are the list and the
  keys, those in ascending order behind a caret. -/
  sortFunction : String
deriving DecidableEq, Repr

namespace CompileOptions

/-- The options where nothing else is said. -/
def standard : CompileOptions := ⟨.comprehension, "graphql.run", "graphql.sortColl"⟩

end CompileOptions

end PropertyGraphQL
