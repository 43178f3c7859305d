/-
The search for a name that may stand for a value.

Of the names tried there is one more than there are parameters, and they
all differ, so one of them is not bound to anything else
(`available_freeName`).
-/
import PropertyGraphQL.Compile.Parameters

namespace PropertyGraphQL

/-- A number can be read back from its digits. -/
theorem repr_inj {m n : Nat} (h : m.repr = n.repr) : m = n := by
  have hm := @Nat.ofDigitChars_ten_toDigits m
  have hn := @Nat.ofDigitChars_ten_toDigits n
  rw [← Nat.toList_repr] at hm hn
  rw [← hm, h, hn]

namespace Parameters

variable (p : Parameters) (name : String) (value : Json)

theorem length_candidates : (p.candidates name).length = p.bound.length + 1 := by
  unfold candidates
  rw [List.length_cons, List.length_map, List.length_range]

/-- A name with a number behind it is another than the name itself, and than
the name with another number. -/
theorem nodup_candidates : (p.candidates name).Nodup := by
  unfold candidates
  rw [List.nodup_cons]
  constructor
  · intro hmem
    obtain ⟨i, -, hi⟩ := List.mem_map.mp hmem
    have hlength := congrArg String.length hi
    simp only [String.length_append] at hlength
    have hunderscore : "_".length = 1 := rfl
    omega
  · refine List.pairwise_map.mpr (List.nodup_range.imp ?_)
    intro i j hne heq
    have hrepr : (i + 1).repr = (j + 1).repr := by
      rw [String.append_assoc, String.append_assoc, String.append_right_inj,
        String.append_right_inj] at heq
      exact heq
    have hij := repr_inj hrepr
    omega

/-- A name that is not available is bound. -/
theorem mem_keys_of_not_available {p : Parameters} {value : Json} {name : String}
    (h : p.available value name = false) : name ∈ Dict.keys p.bound := by
  unfold available at h
  split at h
  · cases h
  · next v hv =>
    by_cases hmem : name ∈ Dict.keys p.bound
    · exact hmem
    · rw [Dict.get?_eq_none_iff.mpr hmem] at hv
      cases hv

/-- Not all names tried can be taken: they would be more than there are. -/
theorem exists_available :
    ∃ candidate ∈ p.candidates name, p.available value candidate = true := by
  refine Classical.byContradiction fun hnone => ?_
  have hsubset : p.candidates name ⊆ Dict.keys p.bound := by
    intro candidate hmem
    cases h : p.available value candidate with
    | true => exact absurd ⟨candidate, hmem, h⟩ hnone
    | false => exact mem_keys_of_not_available h
  have hle := (p.nodup_candidates name).length_le_of_subset hsubset
  rw [length_candidates, Dict.keys, List.length_map] at hle
  omega

/-- A name that is chosen is available. -/
theorem available_freeName : p.available value (p.freeName name value) = true := by
  unfold freeName
  cases hfind : (p.candidates name).find? (p.available value) with
  | some candidate => exact List.find?_some hfind
  | none =>
    obtain ⟨candidate, hmem, h⟩ := p.exists_available name value
    exact absurd h (List.find?_eq_none.mp hfind candidate hmem)

end Parameters

end PropertyGraphQL
