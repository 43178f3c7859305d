/-
Which way a relationship is followed, in the model and in statements alike.
-/
import PropertyGraphQL.Json

namespace PropertyGraphQL

/-- Which way a relationship is followed. -/
inductive Direction where
  | outgoing
  | incoming
deriving DecidableEq, Repr

namespace Direction

/-- The direction that a text names: `in`, in ASCII letters of either
case, is incoming, and everything else is outgoing. -/
def ofText (text : String) : Direction :=
  if text.toList.map Char.toLower = ['i', 'n'] then .incoming else .outgoing

/-- The short name of a direction. -/
def shortName : Direction → String
  | outgoing => "Out"
  | incoming => "In"

/-- The direction with the short name. -/
def ofShortName? : String → Option Direction
  | "Out" => some outgoing
  | "In" => some incoming
  | _ => none

theorem ofShortName?_shortName (d : Direction) : ofShortName? d.shortName = some d := by
  cases d <;> rfl

end Direction

end PropertyGraphQL
