/-
Equality of data.

It is transitive on all data (`same_trans`). It is reflexive on sound data
(`same_refl`): a float that is not a number differs from itself, and an
object with a repeated key does not find its second member again. For the
latter reason it is symmetric where no key is repeated (`same_symm`): then
an object that has an equal member for each of as many others has nothing
else.
-/
import Mathlib.Data.List.Forall2
import Mathlib.Data.List.Perm.Subperm
import PropertyGraphQL.Proofs.Data.KeysDistinct

namespace PropertyGraphQL

-- ================================================================ floats

namespace Binary64

/-- Finite numbers are numbers. -/
theorem not_isNaN_of_isFinite {x : Binary64} (h : x.isFinite = true) : x.isNaN = false := by
  unfold isFinite at h
  unfold isNaN
  rw [bne_iff_ne] at h
  rw [beq_eq_false_iff_ne.mpr h, Bool.false_and]

/-- A finite number equals itself. -/
theorem equal_refl {x : Binary64} (h : x.isFinite = true) : x.equal x = true := by
  unfold equal
  rw [not_isNaN_of_isFinite h, BEq.rfl]
  rfl

/-- Equality of numbers is transitive, for the two zeros, too. -/
theorem equal_trans {x y z : Binary64} (hxy : x.equal y = true) (hyz : y.equal z = true) :
    x.equal z = true := by
  unfold equal at hxy hyz ⊢
  simp only [Bool.and_eq_true, Bool.or_eq_true, Bool.not_eq_true', beq_iff_eq] at hxy hyz ⊢
  obtain ⟨⟨hx, -⟩, hxy⟩ := hxy
  obtain ⟨⟨-, hz⟩, hyz⟩ := hyz
  refine ⟨⟨hx, hz⟩, ?_⟩
  have hzero {a b : Binary64} (hbits : a.bits = b.bits) : a.isZero = b.isZero := by
    unfold isZero magnitudeBits
    rw [hbits]
  rcases hxy with hxy | ⟨hx0, hy0⟩
  · rcases hyz with hyz | ⟨hy0, hz0⟩
    · exact .inl (hxy.trans hyz)
    · exact .inr ⟨(hzero hxy).trans hy0, hz0⟩
  · rcases hyz with hyz | ⟨-, hz0⟩
    · exact .inr ⟨hx0, (hzero hyz).symm.trans hy0⟩
    · exact .inr ⟨hx0, hz0⟩

theorem equal_symm {x y : Binary64} (h : x.equal y = true) : y.equal x = true := by
  unfold equal at h ⊢
  simp only [Bool.and_eq_true, Bool.or_eq_true, Bool.not_eq_true', beq_iff_eq] at h ⊢
  obtain ⟨⟨hx, hy⟩, h⟩ := h
  exact ⟨⟨hy, hx⟩, h.imp Eq.symm And.symm⟩

end Binary64

-- ========================================================== dictionaries

namespace Dict

variable {α : Type}

/-- What is found under a key is an entry. -/
theorem mem_of_get? {d : Dict α} {key : String} {v : α} (h : get? d key = some v) :
    (key, v) ∈ d := by
  induction d with
  | nil => cases h
  | cons entry rest ih =>
    obtain ⟨k, w⟩ := entry
    rw [get?_cons] at h
    split at h
    · next hk =>
      cases h
      rw [hk]
      exact List.mem_cons_self
    · exact List.mem_cons_of_mem _ (ih h)

theorem mem_keys_of_mem {d : Dict α} {key : String} {v : α} (h : (key, v) ∈ d) :
    key ∈ keys d :=
  List.mem_map_of_mem h

/-- Where no key is repeated, what is found under a key is what stands there. -/
theorem get?_eq_some_iff {d : Dict α} (hnodup : (keys d).Nodup) {key : String} {v : α} :
    get? d key = some v ↔ (key, v) ∈ d := by
  constructor
  · exact mem_of_get?
  · intro hmem
    induction d with
    | nil => cases hmem
    | cons entry rest ih =>
      obtain ⟨k, w⟩ := entry
      obtain ⟨hk, hrest⟩ := List.nodup_cons.mp hnodup
      rcases List.mem_cons.mp hmem with heq | hmem
      · cases heq
        simp
      · have hne : k ≠ key := by
          rintro rfl
          exact hk (mem_keys_of_mem hmem)
        rw [get?_cons, if_neg hne]
        exact ih hrest hmem

end Dict

-- ============================================================ sound data

namespace Json

mutual

/-- Every float in the data is finite. -/
def FloatsFinite : Json → Prop
  | .float x => x.isFinite = true
  | .arr elems => ElemsFinite elems
  | .obj members => MembersFinite members
  | _ => True

def ElemsFinite : List Json → Prop
  | [] => True
  | j :: rest => FloatsFinite j ∧ ElemsFinite rest

def MembersFinite : List (String × Json) → Prop
  | [] => True
  | (_, j) :: rest => FloatsFinite j ∧ MembersFinite rest

end

/-- Data as it is read: all floats are finite, and no object repeats a
key. -/
structure Sound (j : Json) : Prop where
  finite : j.FloatsFinite
  keys : j.KeysDistinct

-- =============================================================== members

/-- An equal member on the right is found if the keys agree place by place
and none of them is repeated. -/
theorem sameMembers_of_forall₂ {members others : List (String × Json)}
    (h : List.Forall₂ (fun m o => m.1 = o.1 ∧ m.2.same o.2 = true) members others)
    (hkeys : (Dict.keys members).Nodup) (before : List (String × Json))
    (hbefore : ∀ key ∈ Dict.keys members, key ∉ Dict.keys before) :
    sameMembers members (before ++ others) = true := by
  induction h generalizing before with
  | nil => rw [sameMembers]
  | @cons m o rest others hmo _ ih =>
    obtain ⟨key, j⟩ := m
    obtain ⟨key', j'⟩ := o
    obtain ⟨rfl, hsame⟩ := hmo
    have hnodup : key ∉ Dict.keys rest ∧ (Dict.keys rest).Nodup :=
      List.nodup_cons.mp hkeys
    -- keys do not repeat, so the member is found behind those that came before
    have hget : Dict.get? (before ++ (key, j') :: others) key = some j' := by
      have hnot := hbefore key List.mem_cons_self
      clear ih hbefore
      induction before with
      | nil => rw [List.nil_append, Dict.get?_cons, if_pos rfl]
      | cons b before ihb =>
        have hb : b.1 ≠ key := fun e => hnot (e ▸ List.mem_cons_self)
        rw [List.cons_append, Dict.get?_cons, if_neg hb]
        exact ihb fun hmem => hnot (List.mem_cons_of_mem _ hmem)
    rw [sameMembers, hget]
    dsimp only
    rw [hsame, Bool.true_and, List.append_cons]
    refine ih hnodup.2 (before ++ [(key, j')]) ?_
    intro other hother hmem
    rw [Dict.keys, List.map_append, List.mem_append] at hmem
    rcases hmem with hmem | hmem
    · exact hbefore other (List.mem_cons_of_mem _ hother) hmem
    · rw [List.map_singleton, List.mem_singleton] at hmem
      rw [hmem] at hother
      exact hnodup.1 hother

/-- Members are the same as others if each is found among these under its key. -/
theorem sameMembers_iff {members others : List (String × Json)} :
    sameMembers members others = true
      ↔ ∀ m ∈ members, ∃ j, Dict.get? others m.1 = some j ∧ m.2.same j = true := by
  induction members with
  | nil =>
    rw [sameMembers]
    exact ⟨fun _ => List.forall_mem_nil _, fun _ => rfl⟩
  | cons m rest ih =>
    obtain ⟨key, j⟩ := m
    rw [sameMembers, Bool.and_eq_true, ih, List.forall_mem_cons]
    refine and_congr ?_ Iff.rfl
    cases Dict.get? others key with
    | none => simp
    | some j' => simp

/-- Lists are the same if they are element by element. -/
theorem sameElems_iff {elems others : List Json} :
    sameElems elems others = true
      ↔ List.Forall₂ (fun a b => a.same b = true) elems others := by
  induction elems generalizing others with
  | nil =>
    cases others with
    | nil => exact ⟨fun _ => .nil, fun _ => by rw [sameElems]⟩
    | cons b rest => exact ⟨fun h => (by cases h), fun h => (by cases h)⟩
  | cons a elems ih =>
    cases others with
    | nil => exact ⟨fun h => (by cases h), fun h => (by cases h)⟩
    | cons b rest => rw [sameElems, Bool.and_eq_true, ih, List.forall₂_cons]

-- ============================================================ equivalence

mutual

/-- Sound data equals itself. -/
theorem same_refl {j : Json} (h : j.Sound) : j.same j = true := by
  cases j with
  | null => rw [same]
  | bool b | int b | str b => rw [same, BEq.rfl]
  | float x =>
    rw [same]
    exact Binary64.equal_refl h.finite
  | arr elems =>
    rw [same, sameElems_iff]
    exact forall₂_same_elems h.finite h.keys
  | obj members =>
    rw [same, BEq.rfl, Bool.true_and]
    exact sameMembers_of_forall₂ (forall₂_same_members h.finite h.keys.2) h.keys.1 []
      fun _ _ => List.not_mem_nil

/-- The elements of a list are the same as themselves, as far as they are finite and have
distinct keys. -/
theorem forall₂_same_elems {elems : List Json} (hfinite : ElemsFinite elems)
    (hkeys : ElemsKeysDistinct elems) :
    List.Forall₂ (fun a b => a.same b = true) elems elems := by
  cases elems with
  | nil => exact .nil
  | cons j rest =>
    exact .cons (same_refl ⟨hfinite.1, hkeys.1⟩) (forall₂_same_elems hfinite.2 hkeys.2)

/-- The members of an object are the same as themselves, as far as they are finite and have
distinct keys. -/
theorem forall₂_same_members {members : List (String × Json)}
    (hfinite : MembersFinite members) (hkeys : MembersKeysDistinct members) :
    List.Forall₂ (fun m o => m.1 = o.1 ∧ m.2.same o.2 = true) members members := by
  match members with
  | [] => exact .nil
  | (key, j) :: rest =>
    exact .cons ⟨rfl, same_refl ⟨hfinite.1, hkeys.1⟩⟩
      (forall₂_same_members hfinite.2 hkeys.2)

end

mutual

/-- Sameness is transitive. -/
theorem same_trans {a b c : Json} (hab : a.same b = true) (hbc : b.same c = true) :
    a.same c = true := by
  cases a with
  | null =>
    cases b with
    | null => exact hbc
    | _ => simp only [same, Bool.false_eq_true] at hab
  | bool x | int x | str x =>
    cases b with
    | bool y | int y | str y =>
      simp only [same, beq_iff_eq, Bool.false_eq_true] at hab
      try exact hab ▸ hbc
    | _ => simp only [same, Bool.false_eq_true] at hab
  | float x =>
    cases b with
    | float y =>
      cases c with
      | float z =>
        rw [same] at hab hbc ⊢
        exact Binary64.equal_trans hab hbc
      | _ => simp only [same, Bool.false_eq_true] at hbc
    | _ => simp only [same, Bool.false_eq_true] at hab
  | arr as =>
    cases b with
    | arr bs =>
      cases c with
      | arr cs =>
        rw [same] at hab hbc ⊢
        exact sameElems_trans hab hbc
      | _ => simp only [same, Bool.false_eq_true] at hbc
    | _ => simp only [same, Bool.false_eq_true] at hab
  | obj as =>
    cases b with
    | obj bs =>
      cases c with
      | obj cs =>
        rw [same, Bool.and_eq_true, beq_iff_eq] at hab hbc ⊢
        refine ⟨hab.1.trans hbc.1, sameMembers_iff.mpr fun m hm => ?_⟩
        obtain ⟨j, hj, hmj⟩ := sameMembers_iff.mp hab.2 m hm
        obtain ⟨k, hk, hjk⟩ := sameMembers_iff.mp hbc.2 _ (Dict.mem_of_get? hj)
        exact ⟨k, hk, same_trans_members as m hm hmj hjk⟩
      | _ => simp only [same, Bool.false_eq_true] at hbc
    | _ => simp only [same, Bool.false_eq_true] at hab

/-- Sameness of lists is transitive. -/
theorem sameElems_trans {as bs cs : List Json} (hab : sameElems as bs = true)
    (hbc : sameElems bs cs = true) : sameElems as cs = true := by
  match as, bs, cs with
  | [], [], [] => rw [sameElems]
  | [], [], _ :: _ => exact hbc
  | [], _ :: _, _ => simp only [sameElems, Bool.false_eq_true] at hab
  | _ :: _, [], _ => simp only [sameElems, Bool.false_eq_true] at hab
  | _ :: _, _ :: _, [] => simp only [sameElems, Bool.false_eq_true] at hbc
  | a :: as, b :: bs, c :: cs =>
    rw [sameElems, Bool.and_eq_true] at hab hbc ⊢
    exact ⟨same_trans hab.1 hbc.1, sameElems_trans hab.2 hbc.2⟩

theorem same_trans_members (members : List (String × Json)) :
    ∀ m ∈ members, ∀ {b c : Json}, m.2.same b = true → b.same c = true →
      m.2.same c = true := by
  match members with
  | [] => exact List.forall_mem_nil _
  | (key, j) :: rest =>
    intro m hm b c hb hc
    rcases List.mem_cons.mp hm with rfl | hm
    · exact same_trans hb hc
    · exact same_trans_members rest m hm hb hc

end

/-- Of as many members, each equal to one on the right, the right has no other keys,
and no key twice. -/
theorem perm_keys_of_same {members others : List (String × Json)}
    (hnodup : (Dict.keys members).Nodup) (hlength : members.length = others.length)
    (h : sameMembers members others = true) :
    (Dict.keys members).Perm (Dict.keys others) := by
  have hsubset : Dict.keys members ⊆ Dict.keys others := by
    intro key hkey
    obtain ⟨m, hm, rfl⟩ := List.mem_map.mp hkey
    obtain ⟨j, hj, -⟩ := sameMembers_iff.mp h m hm
    exact Dict.mem_keys_of_mem (Dict.mem_of_get? hj)
  refine (hnodup.subperm hsubset).perm_of_length_le ?_
  rw [Dict.keys, Dict.keys, List.length_map, List.length_map]
  exact Nat.le_of_eq hlength.symm

mutual

/-- Sameness is symmetric where keys are distinct. -/
theorem same_symm {a b : Json} (hkeys : a.KeysDistinct) (h : a.same b = true) :
    b.same a = true := by
  cases a with
  | null | bool x | int x | str x => cases b <;> simp_all [same]
  | float x =>
    cases b with
    | float y =>
      rw [same] at h ⊢
      exact Binary64.equal_symm h
    | _ => simp only [same, Bool.false_eq_true] at h
  | arr as =>
    cases b with
    | arr bs =>
      rw [same] at h ⊢
      exact sameElems_symm hkeys h
    | _ => simp only [same, Bool.false_eq_true] at h
  | obj as =>
    cases b with
    | obj bs =>
      obtain ⟨hnodup, hmembers⟩ : (Dict.keys as).Nodup ∧ MembersKeysDistinct as := hkeys
      rw [same, Bool.and_eq_true, beq_iff_eq] at h ⊢
      obtain ⟨hlength, h⟩ := h
      -- both have the same keys, each once, so every member of one is found in the other
      have hperm := perm_keys_of_same hnodup hlength h
      refine ⟨hlength.symm, sameMembers_iff.mpr ?_⟩
      rintro ⟨key, j⟩ hj
      obtain ⟨⟨key', i⟩, hi, rfl⟩ :=
        List.mem_map.mp (hperm.mem_iff.mpr (Dict.mem_keys_of_mem hj))
      obtain ⟨j', hj', hsame⟩ := sameMembers_iff.mp h _ hi
      rw [(Dict.get?_eq_some_iff (hperm.nodup_iff.mp hnodup)).mpr hj] at hj'
      cases hj'
      exact ⟨i, (Dict.get?_eq_some_iff hnodup).mpr hi,
        same_symm_members as hmembers _ hi hsame⟩
    | _ => simp only [same, Bool.false_eq_true] at h

/-- Sameness of lists is symmetric, if keys are distinct in the first one. -/
theorem sameElems_symm {as bs : List Json} (hkeys : ElemsKeysDistinct as)
    (h : sameElems as bs = true) : sameElems bs as = true := by
  match as, bs with
  | [], [] => rw [sameElems]
  | [], _ :: _ => simp only [sameElems, Bool.false_eq_true] at h
  | _ :: _, [] => simp only [sameElems, Bool.false_eq_true] at h
  | a :: as, b :: bs =>
    rw [sameElems, Bool.and_eq_true] at h ⊢
    exact ⟨same_symm hkeys.1 h.1, sameElems_symm hkeys.2 h.2⟩

theorem same_symm_members (members : List (String × Json))
    (hkeys : MembersKeysDistinct members) :
    ∀ m ∈ members, ∀ {b : Json}, m.2.same b = true → b.same m.2 = true := by
  match members with
  | [] => exact List.forall_mem_nil _
  | (key, j) :: rest =>
    intro m hm b hb
    rcases List.mem_cons.mp hm with rfl | hm
    · exact same_symm hkeys.1 hb
    · exact same_symm_members rest hkeys.2 m hm hb

end

/-- Data that is equal, be it the very same. -/
def Agrees (a b : Json) : Prop := a = b ∨ a.same b = true

/-- Agreement of values is transitive. -/
theorem Agrees.trans {a b c : Json} (hab : a.Agrees b) (hbc : b.Agrees c) : a.Agrees c := by
  rcases hab with rfl | hab
  · exact hbc
  · rcases hbc with rfl | hbc
    · exact .inr hab
    · exact .inr (same_trans hab hbc)

/-- Equal data is the same if it is sound. -/
theorem Agrees.same {a b : Json} (h : a.Agrees b) (ha : a.Sound) : a.same b = true := by
  rcases h with rfl | h
  · exact same_refl ha
  · exact h

end Json

end PropertyGraphQL
