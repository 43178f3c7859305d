/-
The lexemes of expressions, clauses and statements.

A conjunction directly inside a disjunction stands in parentheses, and
so does a disjunction inside a conjunction; operands joined by the same
connective stay flat. A condition that is the constant truth is left out
of comprehensions and of `MATCH`. Clauses go on lines of their own, and so
do the sub-clauses that sort and cut.
-/
import PropertyGraphQL.Cypher.Clause

namespace PropertyGraphQL.Cypher

/-- How the comparison is written between its operands. -/
def Comparison.text : Comparison → String
  | .eq => "="
  | .neq => "<>"
  | .lt => "<"
  | .lte => "<="
  | .gt => ">"
  | .gte => ">="
  | .member => "IN"
  | .contains => "CONTAINS"
  | .startsWith => "STARTS WITH"
  | .endsWith => "ENDS WITH"

def Quantifier.text : Quantifier → String
  | .any => "ANY"
  | .none => "NONE"
  | .all => "ALL"
  | .single => "SINGLE"

def SortOrder.text : SortOrder → String
  | .ascending => "ASC"
  | .descending => "DESC"

/-- A name that may be missing. -/
def binderLexemes : Option String → List Lexeme
  | some name => [.identifier name]
  | none => []

/-- Labels, each behind a colon. -/
def labelLexemes (labels : List String) : List Lexeme :=
  labels.flatMap fun label => [.plain ":", .identifier label]

/-- A bound of a slice; nothing if it is open. -/
def boundLexemes : Option Int → List Lexeme
  | some n => [.plain (Json.integerText n)]
  | none => []

def RelationshipPattern.lexemes (r : RelationshipPattern) : List Lexeme :=
  let (left, right) :=
    match r.direction with
    | .outgoing => ("-[", "]->")
    | .incoming => ("<-[", "]-")
  .plain left :: binderLexemes r.binder ++
    [.plain ":", .identifier r.relType, .plain right]

/-- Whether the operand of a conjunction needs parentheses. -/
def Predicate.looseInAnd : Predicate → Bool
  | .disj _ _ => true
  | _ => false

/-- Whether the operand of a disjunction needs parentheses. -/
def Predicate.looseInOr : Predicate → Bool
  | .conj _ _ => true
  | _ => false

/-- The lexemes in parentheses if that is needed. -/
def parenthesized (needed : Bool) (lexemes : List Lexeme) : List Lexeme :=
  if needed then .plain "(" :: lexemes ++ [.plain ")"] else lexemes

/-- A condition behind its keyword, unless it is the constant truth. -/
def whereLexemes (keyword : String) (condition : Predicate) (lexemes : List Lexeme) :
    List Lexeme :=
  if condition.isAlways then [] else .plain keyword :: lexemes

mutual

def Expression.lexemes : Expression → List Lexeme
  | .literal value => value.lexemes
  | .parameter name => [.parameter name]
  | .var name => [.identifier name]
  | .property owner key => propertyAccess owner key
  | .call function args =>
      .plain function :: .plain "(" :: separated ", " (Expression.listLexemes args) ++ [.plain ")"]
  | .map entries =>
      .plain "\x7b" :: separated ", " (Expression.entriesLexemes entries) ++ [.plain "\x7d"]
  | .projection owner items =>
      .identifier owner :: .plain " \x7b" :: separated ", " (MapItem.listLexemes items)
        ++ [.plain "\x7d"]
  | .list elems => .plain "[" :: separated ", " (Expression.listLexemes elems) ++ [.plain "]"]
  | .patternComprehension pattern condition result =>
      .plain "[" :: Pattern.lexemes pattern
        ++ whereLexemes " WHERE " condition (Predicate.lexemes condition)
        ++ .plain " | " :: Expression.lexemes result ++ [.plain "]"]
  | .listComprehension binder source condition result =>
      .plain "[" :: .identifier binder :: .plain " IN " :: Expression.lexemes source
        ++ whereLexemes " WHERE " condition (Predicate.lexemes condition)
        ++ Expression.resultLexemes result ++ [.plain "]"]
  | .slice source lower upper =>
      Expression.lexemes source ++ .plain "[" :: boundLexemes lower
        ++ .plain ".." :: boundLexemes upper ++ [.plain "]"]
  | .conditional condition yes no =>
      .plain "CASE WHEN " :: Predicate.lexemes condition
        ++ .plain " THEN " :: Expression.lexemes yes
        ++ .plain " ELSE " :: Expression.lexemes no ++ [.plain " END"]
  | .countAll => [.plain "count(*)"]

def Expression.listLexemes : List Expression → List (List Lexeme)
  | [] => []
  | e :: rest => Expression.lexemes e :: Expression.listLexemes rest

def Expression.entriesLexemes : List (String × Expression) → List (List Lexeme)
  | [] => []
  | (key, e) :: rest =>
      entryLexemes key (Expression.lexemes e) :: Expression.entriesLexemes rest

/-- The element that a list comprehension makes, if it says so. -/
def Expression.resultLexemes : Option Expression → List Lexeme
  | some e => .plain " | " :: Expression.lexemes e
  | none => []

def MapItem.lexemes : MapItem → List Lexeme
  | .property key => [.plain ".", .identifier key]
  | .entry key value => entryLexemes key (Expression.lexemes value)

def MapItem.listLexemes : List MapItem → List (List Lexeme)
  | [] => []
  | item :: rest => MapItem.lexemes item :: MapItem.listLexemes rest

def NodePattern.lexemes : NodePattern → List Lexeme
  | ⟨binder, labels, properties⟩ =>
      .plain "(" :: binderLexemes binder ++ labelLexemes labels
        ++ (if properties.isEmpty then [] else
            .plain " \x7b" :: separated ", " (Expression.entriesLexemes properties)
              ++ [.plain "\x7d"])
        ++ [.plain ")"]

def NodePattern.hopsLexemes : List (RelationshipPattern × NodePattern) → List Lexeme
  | [] => []
  | (relationship, node) :: rest =>
      relationship.lexemes ++ NodePattern.lexemes node ++ NodePattern.hopsLexemes rest

def Pattern.lexemes : Pattern → List Lexeme
  | ⟨start, hops⟩ => NodePattern.lexemes start ++ NodePattern.hopsLexemes hops

def Predicate.lexemes : Predicate → List Lexeme
  | .always => [.plain "true"]
  | .never => [.plain "false"]
  | .compare comparison lhs rhs =>
      Expression.lexemes lhs ++ .plain " " :: .plain comparison.text :: .plain " "
        :: Expression.lexemes rhs
  | .isNull subject => Expression.lexemes subject ++ [.plain " IS NULL"]
  | .isNotNull subject => Expression.lexemes subject ++ [.plain " IS NOT NULL"]
  | .quantified quantifier binder source condition =>
      .plain quantifier.text :: .plain "(" :: .identifier binder :: .plain " IN "
        :: Expression.lexemes source
        ++ .plain " WHERE " :: Predicate.lexemes condition ++ [.plain ")"]
  | .conj lhs rhs =>
      parenthesized lhs.looseInAnd (Predicate.lexemes lhs) ++ .plain " AND "
        :: parenthesized rhs.looseInAnd (Predicate.lexemes rhs)
  | .disj lhs rhs =>
      parenthesized lhs.looseInOr (Predicate.lexemes lhs) ++ .plain " OR "
        :: parenthesized rhs.looseInOr (Predicate.lexemes rhs)
  | .neg inner => .plain "NOT (" :: Predicate.lexemes inner ++ [.plain ")"]

end

-- ============================================================= clauses

def ReturnItem.lexemes (item : ReturnItem) : List Lexeme :=
  match item.rename with
  | some name => item.expression.lexemes ++ [.plain " AS ", .identifier name]
  | none => item.expression.lexemes

def OrderBy.lexemes (orderBy : OrderBy) : List Lexeme :=
  .plain "ORDER BY " :: separated ", " (orderBy.map fun (e, ordering) =>
    e.lexemes ++ [.plain " ", .plain ordering.text])

def SetItem.lexemes : SetItem → List Lexeme
  | .replace target value => .identifier target :: .plain " = " :: value.lexemes
  | .merge target value => .identifier target :: .plain " += " :: value.lexemes
  | .labels target names => .identifier target :: labelLexemes names

/-- A sub-clause on a line of its own, if it is there. -/
def onOwnLine : Option (List Lexeme) → List Lexeme
  | some lexemes => .plain "\n" :: lexemes
  | none => []

def itemsLexemes (items : List ReturnItem) : List Lexeme :=
  separated ", " (items.map ReturnItem.lexemes)

def Clause.lexemes : Clause → List Lexeme
  | .matching pattern optional condition =>
      .plain (if optional then "OPTIONAL MATCH " else "MATCH ") :: pattern.lexemes
        ++ whereLexemes "\nWHERE " condition condition.lexemes
  | .withItems items orderBy =>
      .plain "WITH " :: itemsLexemes items ++ onOwnLine (orderBy.map OrderBy.lexemes)
  | .unwind source binder =>
      .plain "UNWIND " :: source.lexemes ++ [.plain " AS ", .identifier binder]
  | .create pattern => .plain "CREATE " :: pattern.lexemes
  | .merge pattern => .plain "MERGE " :: pattern.lexemes
  | .set items => .plain "SET " :: separated ", " (items.map SetItem.lexemes)
  | .delete targets detach =>
      .plain (if detach then "DETACH DELETE " else "DELETE ")
        :: separated ", " (targets.map fun target => [.identifier target])
  | .returnItems items orderBy skip limit =>
      .plain "RETURN " :: itemsLexemes items
        ++ onOwnLine (orderBy.map OrderBy.lexemes)
        ++ onOwnLine (skip.map fun n => [.plain "SKIP ", .plain (Json.integerText n)])
        ++ onOwnLine (limit.map fun n => [.plain "LIMIT ", .plain (Json.integerText n)])

def PlanReport.text : PlanReport → String
  | .profile => "PROFILE\n"
  | .explain => "EXPLAIN\n"

namespace Statement

def lexemes (s : Statement) : List Lexeme :=
  (match s.report with
    | some report => [.plain report.text]
    | none => [])
  ++ separated "\n" (s.clauses.map Clause.lexemes)

/-- The text of a statement. -/
def text (s : Statement) : String := textOf s.lexemes

/-- The parameters of a statement, in the order of first use. -/
def parameters (s : Statement) : List String := parametersOf s.lexemes

end Statement

end PropertyGraphQL.Cypher
