/-
The rows that a statement returns, and the value that a field has for them.
-/
import PropertyGraphQL.Result.GraphValue

namespace PropertyGraphQL

/-- The values of the columns, in the order of the `RETURN` clause. -/
abbrev Row := Dict GraphValue

namespace Row

/-- The row that data stands for. -/
def ofJson? (j : Json) : Option Row := j.asObject?.map GraphValue.ofMembers

/-- What stands for a row: the value of its only column, or all columns. -/
def toJson : Row → Json
  | [(_, value)] => value.toJson
  | row => .obj (GraphValue.entriesToJson row)

/-- The value of a field: all rows, or the first, or null if there is none. -/
def fieldValue (isList : Bool) (rows : List Row) : Json :=
  if isList then .arr (rows.map toJson) else (rows.head?.map toJson).getD .null

end Row

end PropertyGraphQL
