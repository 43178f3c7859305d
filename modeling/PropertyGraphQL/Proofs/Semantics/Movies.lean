/-
A graph of movies with its catalog, and a database for it: an instance of
everything that the theory asks of a database.
-/
import PropertyGraphQL.Model.Catalog
import PropertyGraphQL.Proofs.Semantics.Graph

namespace PropertyGraphQL

open Cypher

/-- Movies, which people act in. -/
def EntityType.movie : EntityType :=
  { EntityType.blank "Movie" with
    properties :=
      [("title", .plain "title" (.scalar "String")),
        ("released", .plain "released" (.scalar "Int"))]
    relationships := [("actors", .plain "actors" ⟨.incoming, "ACTED_IN", "Person"⟩ true)] }

/-- People, who act in movies. -/
def EntityType.person : EntityType :=
  { EntityType.blank "Person" with
    properties :=
      [("name", .plain "name" (.scalar "String")), ("born", .plain "born" (.scalar "Int"))]
    relationships := [("movies", .plain "movies" ⟨.outgoing, "ACTED_IN", "Movie"⟩ true)] }

def Catalog.movies : Catalog :=
  { Catalog.empty with types := [("Movie", .movie), ("Person", .person)] }

namespace Cypher

/-- A movie with two people who act in it. -/
def Graph.movies : Graph where
  nodes := [0, 1, 2]
  labels node := if node = 0 then ["Movie"] else ["Person"]
  property node key :=
    match node, key with
    | 0, "released" => .int 1999
    | 1, "born" => .int 1964
    | 2, "born" => .int 1967
    | _, _ => .null
  relationships := [⟨0, "ACTED_IN", 1, 0⟩, ⟨1, "ACTED_IN", 2, 0⟩]
  relationshipProperty _ _ := .null

/-- Integers compared as databases do it; anything else is left open. -/
def Datum.compareIntegers (c : Comparison) : Datum → Datum → Truth
  | .int a, .int b =>
      match c with
      | .eq => .ofBool (a = b)
      | .neq => .ofBool (a ≠ b)
      | .lt => .ofBool (a < b)
      | .lte => .ofBool (a ≤ b)
      | .gt => .ofBool (b < a)
      | .gte => .ofBool (b ≤ a)
      | _ => .unknown
  | _, _ => .unknown

/-- A database for a graph whose values are integers. -/
def Graph.integerDatabase (g : Graph) : Database where
  graph := g
  compare := Datum.compareIntegers
  call _ _ := .null
  parameter _ := .null

/-- A graph whose values compare as integers do is lawful. -/
theorem Graph.lawful_integerDatabase (g : Graph) : g.integerDatabase.Lawful where
  neq a b := by
    cases a with
    | int m =>
      cases b with
      | int n =>
        by_cases h : m = n
        · simp [integerDatabase, Datum.compareIntegers, h, Truth.ofBool, Truth.not]
        · simp [integerDatabase, Datum.compareIntegers, h, Truth.ofBool, Truth.not]
      | _ => rfl
    | _ => rfl
  same c d a b _ _ h := by
    cases a with
    | int m =>
      cases b with
      | int n =>
        rw [Literal.same, beq_iff_eq] at h
        rw [h]
      | _ => simp only [Literal.same, Bool.false_eq_true] at h
    | _ =>
      cases b with
      | int n => simp only [Literal.same, Bool.false_eq_true] at h
      | _ => cases d <;> rfl

end Cypher

end PropertyGraphQL
