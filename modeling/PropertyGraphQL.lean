import PropertyGraphQL.CommandLine.Command
import PropertyGraphQL.CommandLine.Report
import PropertyGraphQL.Compile.Arguments
import PropertyGraphQL.Compile.Comprehension
import PropertyGraphQL.Compile.Error
import PropertyGraphQL.Compile.Filter
import PropertyGraphQL.Compile.Mutation
import PropertyGraphQL.Compile.Options
import PropertyGraphQL.Compile.Parameters
import PropertyGraphQL.Compile.Plan
import PropertyGraphQL.Compile.Query
import PropertyGraphQL.Compile.Staged
import PropertyGraphQL.Compile.Traversal
import PropertyGraphQL.Cypher.Clause
import PropertyGraphQL.Cypher.Expression
import PropertyGraphQL.Cypher.Lexeme
import PropertyGraphQL.Cypher.Literal
import PropertyGraphQL.Cypher.Predicate
import PropertyGraphQL.Cypher.Writer
import PropertyGraphQL.Dict
import PropertyGraphQL.Direction
import PropertyGraphQL.Document.Executable
import PropertyGraphQL.Document.Fault
import PropertyGraphQL.Document.Quoted
import PropertyGraphQL.Document.Reader
import PropertyGraphQL.Document.Schema
import PropertyGraphQL.Document.Value
import PropertyGraphQL.Environment
import PropertyGraphQL.Environment.Settings
import PropertyGraphQL.Grammar.Peg
import PropertyGraphQL.Grammar.Rule
import PropertyGraphQL.Json
import PropertyGraphQL.Json.Numeral
import PropertyGraphQL.Json.Reader
import PropertyGraphQL.Json.Writer
import PropertyGraphQL.Main
import PropertyGraphQL.Model.Catalog
import PropertyGraphQL.Model.Description
import PropertyGraphQL.Model.EntityType
import PropertyGraphQL.Model.Field
import PropertyGraphQL.Model.FieldType
import PropertyGraphQL.Model.Operator
import PropertyGraphQL.Model.Record
import PropertyGraphQL.Model.Sample
import PropertyGraphQL.Model.Schema
import PropertyGraphQL.Model.SchemaError
import PropertyGraphQL.Number.Binary64
import PropertyGraphQL.Number.Shortest
import PropertyGraphQL.Request.Operation
import PropertyGraphQL.Request.Selection
import PropertyGraphQL.Result.GraphValue
import PropertyGraphQL.Result.Row
import PropertyGraphQL.Service.Context
import PropertyGraphQL.Service.Error
import PropertyGraphQL.Service.Memory
import PropertyGraphQL.Service.Response
import PropertyGraphQL.Service.Run
import PropertyGraphQL.Text.Affix
import PropertyGraphQL.Text.Blank
import PropertyGraphQL.Text.Case
import PropertyGraphQL.Text.CaseTable
import PropertyGraphQL.Text.Position
import PropertyGraphQL.Proofs.Semantics.Truth
import PropertyGraphQL.Proofs.Semantics.Valuation
import PropertyGraphQL.Proofs.Semantics.Evaluation
import PropertyGraphQL.Proofs.Compile.Success
import PropertyGraphQL.Proofs.Filter.Evaluation
import PropertyGraphQL.Proofs.Data.Equality
import PropertyGraphQL.Proofs.Parameters.FreeName
import PropertyGraphQL.Proofs.Parameters.Yields
import PropertyGraphQL.Proofs.Outcome.Arguments
import PropertyGraphQL.Proofs.Outcome.Plan
import PropertyGraphQL.Proofs.Outcome.Statement
import PropertyGraphQL.Proofs.Scope.Closed
import PropertyGraphQL.Proofs.Outcome.Form
import PropertyGraphQL.Proofs.Scope.Plan
import PropertyGraphQL.Proofs.Scope.Statement
import PropertyGraphQL.Proofs.Parameters.References
import PropertyGraphQL.Proofs.Freshness.Clause
import PropertyGraphQL.Proofs.Freshness.Plan
import PropertyGraphQL.Proofs.Freshness.Statement
import PropertyGraphQL.Proofs.Quoting.Atoms
import PropertyGraphQL.Proofs.Quoting.Scan
import PropertyGraphQL.Proofs.Quoting.Shows
import PropertyGraphQL.Proofs.Quoting.Outline
import PropertyGraphQL.Proofs.Quoting.Statement
import PropertyGraphQL.Proofs.Readability.Canonical
import PropertyGraphQL.Proofs.Readability.Pieces
import PropertyGraphQL.Proofs.Readability.Fronts
import PropertyGraphQL.Proofs.Readability.Expression
import PropertyGraphQL.Proofs.Readability.Predicate
import PropertyGraphQL.Proofs.Readability.Unique
import PropertyGraphQL.Proofs.Dialects.Traversals
import PropertyGraphQL.Proofs.Dialects.Plan
import PropertyGraphQL.Proofs.Dialects.Statement
import PropertyGraphQL.Proofs.Semantics.Rows
import PropertyGraphQL.Proofs.Answers.Plan
import PropertyGraphQL.Proofs.Answers.Bag
import PropertyGraphQL.Proofs.Answers.Opening
import PropertyGraphQL.Proofs.Answers.Closing
import PropertyGraphQL.Proofs.Answers.Staged
import PropertyGraphQL.Proofs.Answers.Statement
import PropertyGraphQL.Proofs.Changes.Kinds
import PropertyGraphQL.Proofs.Changes.Statement
import PropertyGraphQL.Proofs.Naming.Mutation
import PropertyGraphQL.Proofs.Naming.Operator
import PropertyGraphQL.Proofs.Service.Replacement
import PropertyGraphQL.Proofs.Service.Serving
import PropertyGraphQL.Proofs.Service.Together
import PropertyGraphQL.Proofs.Service.Execution
import PropertyGraphQL.Proofs.Service.SingleFlight
import PropertyGraphQL.Proofs.Service.Reset
import PropertyGraphQL.Proofs.Service.Inference
import PropertyGraphQL.Proofs.Service.Failure
import PropertyGraphQL.Proofs.Request.Conditions
import PropertyGraphQL.Proofs.Request.Lowering
import PropertyGraphQL.Proofs.Request.Operation
import PropertyGraphQL.Proofs.Response.Fields
import PropertyGraphQL.Proofs.Response.Repeated
import PropertyGraphQL.Proofs.Response.Failure
import PropertyGraphQL.Proofs.Schema.Producers
import PropertyGraphQL.Proofs.Schema.Order
import PropertyGraphQL.Proofs.Schema.Extensions
import PropertyGraphQL.Proofs.Parameters.Values
import PropertyGraphQL.Proofs.Filter.Agreement
import PropertyGraphQL.Proofs.Answers.Window
import PropertyGraphQL.Proofs.Selection.Occurrences
import PropertyGraphQL.Proofs.Selection.Rewriting
import PropertyGraphQL.Proofs.Selection.Statement
import PropertyGraphQL.Proofs.Scope.Bindings
import PropertyGraphQL.Proofs.Schema.Labels
import PropertyGraphQL.Proofs.Parameters.Referenced
import PropertyGraphQL.Proofs.Parameters.Bound
import PropertyGraphQL.Proofs.Parameters.Scopes
import PropertyGraphQL.Proofs.Parameters.Supplied
import PropertyGraphQL.Proofs.Changes.Created
import PropertyGraphQL.Proofs.Keys.Maps
import PropertyGraphQL.Proofs.Selection.Reads
import PropertyGraphQL.Proofs.Keys.Fields
import PropertyGraphQL.Proofs.Keys.Schema
import PropertyGraphQL.Proofs.Keys.Statement
import PropertyGraphQL.Proofs.Arguments.Used
import PropertyGraphQL.Proofs.Arguments.Statement
import PropertyGraphQL.Proofs.Result.Unchanged
import PropertyGraphQL.Proofs.Samples.Merging
import PropertyGraphQL.Proofs.Samples.Inferred
import PropertyGraphQL.Proofs.Samples.Catalog
import PropertyGraphQL.Proofs.Samples.Order
import PropertyGraphQL.Proofs.Traversed.Paths
import PropertyGraphQL.Proofs.Traversed.Plan
import PropertyGraphQL.Proofs.Traversed.Nesting
import PropertyGraphQL.Proofs.Traversed.Statement
import PropertyGraphQL.Proofs.Parameters.Search
import PropertyGraphQL.Proofs.Schema.InPlace
import PropertyGraphQL.Proofs.Text.Place
import PropertyGraphQL.Proofs.Text.Offset
import PropertyGraphQL.Proofs.Diagnostics.Reading
import PropertyGraphQL.Proofs.Diagnostics.Statement
import PropertyGraphQL.Proofs.Service.Throttling
