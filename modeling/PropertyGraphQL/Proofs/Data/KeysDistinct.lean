/-
Data in which no object has a key twice.

All data that is read has this form, since giving a key again replaces its
value. Without it equality of data would not be an equality: a repeated
member counts for the length but is looked for once only.
-/
import PropertyGraphQL.Compile.Parameters

namespace PropertyGraphQL

open Cypher

mutual

/-- No object in the data has a key twice. -/
def Json.KeysDistinct : Json → Prop
  | .arr elems => Json.ElemsKeysDistinct elems
  | .obj members => (Dict.keys members).Nodup ∧ Json.MembersKeysDistinct members
  | _ => True

def Json.ElemsKeysDistinct : List Json → Prop
  | [] => True
  | j :: rest => Json.KeysDistinct j ∧ Json.ElemsKeysDistinct rest

def Json.MembersKeysDistinct : List (String × Json) → Prop
  | [] => True
  | (_, j) :: rest => Json.KeysDistinct j ∧ Json.MembersKeysDistinct rest

end

mutual

/-- No map in a constant has a key twice. -/
def Cypher.Literal.KeysDistinct : Literal → Prop
  | .list elems => Literal.ElemsKeysDistinct elems
  | .map entries => (Dict.keys entries).Nodup ∧ Literal.EntriesKeysDistinct entries
  | _ => True

def Cypher.Literal.ElemsKeysDistinct : List Literal → Prop
  | [] => True
  | l :: rest => Literal.KeysDistinct l ∧ Literal.ElemsKeysDistinct rest

def Cypher.Literal.EntriesKeysDistinct : List (String × Literal) → Prop
  | [] => True
  | (_, l) :: rest => Literal.KeysDistinct l ∧ Literal.EntriesKeysDistinct rest

end

namespace Json

/-- The literal for an object has its keys. -/
theorem keys_memberLiterals (members : List (String × Json)) :
    Dict.keys (memberLiterals members) = Dict.keys members := by
  induction members with
  | nil => rfl
  | cons member rest ih =>
    obtain ⟨k, j⟩ := member
    rw [memberLiterals]
    exact congrArg (k :: ·) ih

mutual

/-- Writing data as a constant makes no new keys. -/
theorem KeysDistinct.literal {j : Json} (h : j.KeysDistinct) :
    j.literal.KeysDistinct := by
  cases j with
  | int n =>
    rw [Json.literal]
    split
    · trivial
    · trivial
  | arr elems =>
    rw [KeysDistinct] at h
    rw [Json.literal, Literal.KeysDistinct]
    exact ElemsKeysDistinct.literals h
  | obj members =>
    rw [KeysDistinct] at h
    rw [Json.literal, Literal.KeysDistinct, keys_memberLiterals]
    exact ⟨h.1, MembersKeysDistinct.literals h.2⟩
  | _ => trivial

/-- Distinct keys in the elements of a list are distinct in their literals. -/
theorem ElemsKeysDistinct.literals {elems : List Json}
    (h : ElemsKeysDistinct elems) : Literal.ElemsKeysDistinct (elemLiterals elems) := by
  cases elems with
  | nil => trivial
  | cons j rest => exact ⟨KeysDistinct.literal h.1, ElemsKeysDistinct.literals h.2⟩

/-- Distinct keys in the members of an object are distinct in their literals. -/
theorem MembersKeysDistinct.literals {members : List (String × Json)}
    (h : MembersKeysDistinct members) :
    Literal.EntriesKeysDistinct (memberLiterals members) := by
  match members with
  | [] => trivial
  | (k, j) :: rest =>
    exact ⟨KeysDistinct.literal h.1, MembersKeysDistinct.literals h.2⟩

end

end Json

end PropertyGraphQL
