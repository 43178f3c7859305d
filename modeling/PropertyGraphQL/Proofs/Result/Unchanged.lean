/-
Rows that come back as they are.

What a row stands for is read from data, and written as data again in the
response. Three things change on the way: an object with the members of a node,
a relationship or a path is taken for one, an integer beyond 64 bits becomes a
float, and a float that is not finite becomes null. Data without these is
`Plain`, with finite floats, and comes back as it was, in the same order of
members and with integers and floats apart. No other data does
(`GraphValue.toJson_ofJson_eq_self_iff`): a node would have to be its own
`properties`, but reading and writing never make data deeper
(`GraphValue.depth_toJson_ofJson_le`).
-/
import PropertyGraphQL.Proofs.Data.Equality
import PropertyGraphQL.Result.Row

namespace PropertyGraphQL

-- ============================================================ plain data

namespace Json

/-- The members that nodes and relationships have in common: an integer `id` of 64
bits, and an object `properties`. -/
structure EntityMembers (members : Dict Json) (id : Int) (properties : Dict Json) : Prop where
  get?_id : members.get? "id" = some (.int id)
  fits : minInt64 ≤ id ∧ id ≤ maxInt64
  get?_properties : members.get? "properties" = some (.obj properties)

/-- An object has the members of a node, of a relationship or of a path. -/
inductive GraphShaped (members : Dict Json) : Prop where
  | node {id : Int} {properties : Dict Json} {labels : List String}
      (h : EntityMembers members id properties)
      (hlabels : members.get? "labels" = some (.arr (labels.map .str)))
  | relationship {id : Int} {properties : Dict Json} {type : String}
      (h : EntityMembers members id properties) (htype : members.get? "type" = some (.str type))
  | path {elements : List Json} (h : members.get? "elements" = some (.arr elements))

mutual

/-- No object in the data has the shape of a node, a relationship or a path, and every
integer fits into 64 bits with a sign. -/
def Plain : Json → Prop
  | .int n => minInt64 ≤ n ∧ n ≤ maxInt64
  | .arr elems => ElemsPlain elems
  | .obj members => ¬ GraphShaped members ∧ MembersPlain members
  | _ => True

def ElemsPlain : List Json → Prop
  | [] => True
  | j :: rest => Plain j ∧ ElemsPlain rest

def MembersPlain : List (String × Json) → Prop
  | [] => True
  | (_, j) :: rest => Plain j ∧ MembersPlain rest

end

/-- What a row is in a response if nothing in it is changed: the value of its only
column, or all columns. -/
def ofColumns : Dict Json → Json
  | [(_, value)] => value
  | row => .obj row

/-- A value is read as an integer exactly if it is one of 64 bits. -/
theorem asInt64?_eq_some_iff {j : Json} {n : Int} :
    j.asInt64? = some n ↔ j = .int n ∧ minInt64 ≤ n ∧ n ≤ maxInt64 := by
  cases j with
  | int m =>
    rw [asInt64?, Json.int.injEq]
    by_cases h : minInt64 ≤ m ∧ m ≤ maxInt64
    · rw [if_pos h, Option.some.injEq]
      exact ⟨fun heq => ⟨heq, heq ▸ h⟩, fun h => h.1⟩
    · rw [if_neg h]
      refine ⟨nofun, ?_⟩
      rintro ⟨rfl, hfits⟩
      exact absurd hfits h
  | _ => simp [asInt64?]

theorem asObject?_eq_some_iff {j : Json} {members : Dict Json} :
    j.asObject? = some members ↔ j = .obj members := by
  cases j <;> simp [asObject?]

theorem asArray?_eq_some_iff {j : Json} {elems : List Json} :
    j.asArray? = some elems ↔ j = .arr elems := by
  cases j <;> simp [asArray?]

theorem asString?_eq_some_iff {j : Json} {s : String} : j.asString? = some s ↔ j = .str s := by
  cases j <;> simp [asString?]

/-- A list is read as strings exactly if all its elements are strings. -/
theorem mapM_asString?_eq_some_iff {elems : List Json} {ss : List String} :
    elems.mapM asString? = some ss ↔ elems = ss.map .str := by
  induction elems generalizing ss with
  | nil => cases ss <;> simp
  | cons j rest ih =>
    cases ss with
    | nil => simp [Option.bind_eq_some_iff]
    | cons s ss => simp [Option.bind_eq_some_iff, asString?_eq_some_iff, ih]

/-- A value is read as a list of strings exactly if it is one. -/
theorem asStrings?_eq_some_iff {j : Json} {ss : List String} :
    j.asStrings? = some ss ↔ j = .arr (ss.map .str) := by
  unfold asStrings?
  rw [Option.bind_eq_some_iff]
  constructor
  · rintro ⟨elems, harr, hss⟩
    rw [asArray?_eq_some_iff.mp harr, mapM_asString?_eq_some_iff.mp hss]
  · rintro rfl
    exact ⟨_, rfl, mapM_asString?_eq_some_iff.mpr rfl⟩

end Json

-- ================================================================= shapes

namespace Shape

open Json

variable {members : Dict Json}

/-- A shape fits the members of an object. The last one fits where no other does. -/
inductive Fits (members : Dict Json) : Shape → Prop where
  | node {id : Int} {properties : Dict Json} {labels : List String}
      (h : EntityMembers members id properties)
      (hlabels : members.get? "labels" = some (.arr (labels.map .str))) :
      Fits members (.node id labels)
  | relationship {id : Int} {properties : Dict Json} {type : String}
      (h : EntityMembers members id properties)
      (htype : members.get? "type" = some (.str type)) : Fits members (.relationship id type)
  | path {elements : List Json} (h : members.get? "elements" = some (.arr elements)) :
      Fits members .path
  | map (h : ¬ GraphShaped members) : Fits members .map

/-- Members are read as an entity exactly if they have the shape of one. -/
theorem entityId?_eq_some_iff {id : Int} :
    entityId? members = some id ↔ ∃ properties, EntityMembers members id properties := by
  unfold entityId?
  constructor
  · intro h
    obtain ⟨n, hid, h⟩ := Option.bind_eq_some_iff.mp h
    obtain ⟨properties, hproperties, h⟩ := Option.bind_eq_some_iff.mp h
    cases h
    obtain ⟨j, hj, hn⟩ := Option.bind_eq_some_iff.mp hid
    obtain ⟨j', hj', hobj⟩ := Option.bind_eq_some_iff.mp hproperties
    obtain ⟨rfl, hfits⟩ := asInt64?_eq_some_iff.mp hn
    rw [asObject?_eq_some_iff.mp hobj] at hj'
    exact ⟨properties, hj, hfits, hj'⟩
  · rintro ⟨properties, hid, hfits, hproperties⟩
    rw [hid, hproperties, Option.bind_some, asInt64?_eq_some_iff.mpr ⟨rfl, hfits⟩]
    rfl

/-- An object is taken for the first shape that fits it, in the order node,
relationship, path. -/
theorem fits_ofMembers (members : Dict Json) : Fits members (ofMembers members) := by
  unfold ofMembers
  cases hnode : node? members with
  | some shape =>
    unfold node? at hnode
    obtain ⟨id, hid, hnode⟩ := Option.bind_eq_some_iff.mp hnode
    obtain ⟨labels, hlabels, hnode⟩ := Option.bind_eq_some_iff.mp hnode
    cases hnode
    obtain ⟨properties, h⟩ := entityId?_eq_some_iff.mp hid
    obtain ⟨j, hj, hlabels⟩ := Option.bind_eq_some_iff.mp hlabels
    exact .node h (asStrings?_eq_some_iff.mp hlabels ▸ hj)
  | none =>
    cases hrelationship : relationship? members with
    | some shape =>
      unfold relationship? at hrelationship
      obtain ⟨id, hid, hrelationship⟩ := Option.bind_eq_some_iff.mp hrelationship
      obtain ⟨type, htype, hrelationship⟩ := Option.bind_eq_some_iff.mp hrelationship
      cases hrelationship
      obtain ⟨properties, h⟩ := entityId?_eq_some_iff.mp hid
      obtain ⟨j, hj, htype⟩ := Option.bind_eq_some_iff.mp htype
      exact .relationship h (asString?_eq_some_iff.mp htype ▸ hj)
    | none =>
      cases hpath : path? members with
      | some shape =>
        unfold path? at hpath
        obtain ⟨elements, helements, hpath⟩ := Option.bind_eq_some_iff.mp hpath
        cases hpath
        obtain ⟨j, hj, helements⟩ := Option.bind_eq_some_iff.mp helements
        exact .path (asArray?_eq_some_iff.mp helements ▸ hj)
      | none =>
        -- all three readers have failed, so none of the shapes is there
        refine .map fun hshaped => ?_
        cases hshaped with
        | node h hlabels =>
          simp [node?, entityId?_eq_some_iff.mpr ⟨_, h⟩, hlabels,
            asStrings?_eq_some_iff.mpr rfl] at hnode
        | relationship h htype =>
          simp [relationship?, entityId?_eq_some_iff.mpr ⟨_, h⟩, htype, asString?]
            at hrelationship
        | path h => simp [path?, h, asArray?] at hpath

end Shape

-- ================================================================== depth

namespace Json

mutual

/-- How deep lists and objects are nested in the data. -/
def depth : Json → Nat
  | .null | .bool _ | .int _ | .float _ | .str _ => 0
  | .arr elems => elemsDepth elems + 1
  | .obj members => membersDepth members + 1

def elemsDepth : List Json → Nat
  | [] => 0
  | j :: rest => max (depth j) (elemsDepth rest)

def membersDepth : List (String × Json) → Nat
  | [] => 0
  | (_, j) :: rest => max (depth j) (membersDepth rest)

end

theorem depth_ofBinary64 (x : Binary64) : (ofBinary64 x).depth = 0 := by
  unfold ofBinary64
  split
  · rfl
  · rfl

theorem elemsDepth_texts (ss : List String) : elemsDepth (ss.map .str) = 0 := by
  induction ss with
  | nil => rfl
  | cons s rest ih => rw [List.map_cons, elemsDepth, ih, depth, Nat.max_self]

/-- A member is nested no deeper than all of them. -/
theorem depth_le_membersDepth {members : Dict Json} {key : String} {j : Json}
    (h : members.get? key = some j) : j.depth ≤ membersDepth members := by
  induction members with
  | nil => cases h
  | cons member rest ih =>
    obtain ⟨k, first⟩ := member
    rw [membersDepth]
    rw [Dict.get?_cons] at h
    split at h
    · cases h
      omega
    · have hrest := ih h
      omega

/-- An inserted member makes an object no deeper than it is itself. -/
theorem membersDepth_insert_le (members : Dict Json) (key : String) (j : Json) :
    membersDepth (members.insert key j) ≤ max (membersDepth members) j.depth := by
  induction members with
  | nil =>
    rw [Dict.insert, membersDepth, Nat.max_comm]
    exact Nat.le_refl _
  | cons member rest ih =>
    obtain ⟨k, first⟩ := member
    rw [Dict.insert]
    split
    · rw [membersDepth, membersDepth]
      omega
    · rw [membersDepth, membersDepth]
      omega

end Json

namespace GraphValue

open Json

/-- What identifies a node or relationship is no deeper than what it comes from. -/
theorem depth_identified_le (id : Int) (mark : String) (value : Json) (properties : Dict Json) :
    (identified id mark value properties).depth
      ≤ max (membersDepth properties) value.depth + 1 := by
  have hmark := membersDepth_insert_le (properties.insert "_id" (.int id)) mark value
  have hid := membersDepth_insert_le properties "_id" (.int id)
  rw [depth] at hid
  rw [identified, depth]
  omega

mutual

/-- Reading data and writing it again never makes it deeper. -/
theorem depth_toJson_ofJson_le (j : Json) : (toJson (ofJson j)).depth ≤ j.depth := by
  match j with
  | .null | .bool _ | .str _ => exact Nat.le_refl _
  | .int n =>
    rw [ofJson, ofInt]
    split
    · exact Nat.le_refl _
    · rw [toJson, depth_ofBinary64]
      exact Nat.zero_le _
  | .float x =>
    rw [ofJson, toJson, depth_ofBinary64]
    exact Nat.zero_le _
  | .arr elems =>
    have helems := elemsDepth_toJson_ofElems_le elems
    rw [ofJson, toJson, depth, depth]
    omega
  | .obj members =>
    -- only objects of certain shapes are taken for nodes, relationships and paths
    have hfits := Shape.fits_ofMembers members
    rw [ofJson, depth]
    generalize Shape.ofMembers members = shape at hfits ⊢
    cases hfits with
    | @node id _ labels _ hlabels =>
      have hdeep := depth_le_membersDepth hlabels
      -- the properties come one level up, beside the labels
      have hentries := membersDepth_toJson_entriesAt_le "properties" members
      have hnode := depth_identified_le id "_labels" (.arr (labels.map .str))
        (entriesToJson (entriesAt "properties" members))
      rw [depth, elemsDepth_texts] at hdeep hnode
      rw [toJson]
      omega
    | @relationship id _ type =>
      have hentries := membersDepth_toJson_entriesAt_le "properties" members
      have hrelationship := depth_identified_le id "_type" (.str type)
        (entriesToJson (entriesAt "properties" members))
      rw [depth] at hrelationship
      rw [toJson]
      omega
    | path =>
      have helems := elemsDepth_toJson_elemsAt_le "elements" members
      rw [toJson, depth]
      omega
    | map =>
      have hmembers := membersDepth_toJson_ofMembers_le members
      rw [toJson, depth]
      omega

/-- Decoding elements makes them no deeper. -/
theorem elemsDepth_toJson_ofElems_le (elems : List Json) :
    elemsDepth (elemsToJson (ofElems elems)) ≤ elemsDepth elems := by
  match elems with
  | [] => exact Nat.le_refl _
  | j :: rest =>
    have hj := depth_toJson_ofJson_le j
    have hrest := elemsDepth_toJson_ofElems_le rest
    rw [ofElems, elemsToJson, elemsDepth, elemsDepth]
    omega

/-- Decoding members makes them no deeper. -/
theorem membersDepth_toJson_ofMembers_le (members : List (String × Json)) :
    membersDepth (entriesToJson (ofMembers members)) ≤ membersDepth members := by
  match members with
  | [] => exact Nat.le_refl _
  | (k, j) :: rest =>
    have hj := depth_toJson_ofJson_le j
    have hrest := membersDepth_toJson_ofMembers_le rest
    rw [ofMembers, entriesToJson, membersDepth, membersDepth]
    omega

/-- What is inside a member is less deep than all members. -/
theorem membersDepth_toJson_entriesAt_le (key : String) (members : List (String × Json)) :
    membersDepth (entriesToJson (entriesAt key members)) ≤ membersDepth members - 1 := by
  match members with
  | [] => exact Nat.le_refl _
  | (k, j) :: rest =>
    have hrest := membersDepth_toJson_entriesAt_le key rest
    rw [membersDepth]
    match j with
    | .obj inner =>
      have hinner := membersDepth_toJson_ofMembers_le inner
      rw [entriesAt, depth]
      split
      · omega
      · omega
    | .null | .bool _ | .int _ | .float _ | .str _ | .arr _ =>
      rw [entriesAt]
      · omega
      · exact nofun

/-- What is in the list of a member is less deep than all members. -/
theorem elemsDepth_toJson_elemsAt_le (key : String) (members : List (String × Json)) :
    elemsDepth (elemsToJson (elemsAt key members)) ≤ membersDepth members - 1 := by
  match members with
  | [] => exact Nat.le_refl _
  | (k, j) :: rest =>
    have hrest := elemsDepth_toJson_elemsAt_le key rest
    rw [membersDepth]
    match j with
    | .arr inner =>
      have hinner := elemsDepth_toJson_ofElems_le inner
      rw [elemsAt, depth]
      split
      · omega
      · omega
    | .null | .bool _ | .int _ | .float _ | .str _ | .obj _ =>
      rw [elemsAt]
      · omega
      · exact nofun

end

-- ============================================================= unchanged

/-- The entries under a key are those of the object there. -/
theorem entriesAt_eq {members properties : Dict Json} {key : String}
    (h : members.get? key = some (.obj properties)) :
    entriesAt key members = ofMembers properties := by
  induction members with
  | nil => cases h
  | cons member rest ih =>
    obtain ⟨k, j⟩ := member
    rw [Dict.get?_cons] at h
    split at h
    · next hk =>
      cases h
      rw [entriesAt, if_pos hk]
    · next hk =>
      cases j with
      | obj inner => rw [entriesAt, if_neg hk, ih h]
      | _ =>
        rw [entriesAt, ih h]
        exact nofun

/-- Each member is decoded by itself. -/
theorem get?_toJson_ofMembers (members : Dict Json) (key : String) :
    Dict.get? (entriesToJson (ofMembers members)) key
      = (members.get? key).map fun j => toJson (ofJson j) := by
  induction members with
  | nil => rfl
  | cons member rest ih =>
    obtain ⟨k, j⟩ := member
    rw [ofMembers, entriesToJson, Dict.get?_cons, Dict.get?_cons, ih]
    split
    · rfl
    · rfl

/-- A node or relationship is not written as the object it is read from: its
`properties` would be read from something inside them. -/
theorem identified_ne {members properties : Dict Json} {id : Int} {mark : String} {value : Json}
    (h : members.get? "properties" = some (.obj properties)) (hmark : mark ≠ "properties") :
    identified id mark value (entriesToJson (ofMembers properties)) ≠ .obj members := by
  intro heq
  rw [identified, Json.obj.injEq] at heq
  have hid : "_id" ≠ "properties" := by decide
  rw [← heq, Dict.get?_insert, if_neg hmark, Dict.get?_insert, if_neg hid,
    get?_toJson_ofMembers, Option.map_eq_some_iff] at h
  obtain ⟨j, hj, hread⟩ := h
  have hinside := depth_le_membersDepth hj
  have hdeep := depth_toJson_ofJson_le j
  rw [hread, depth] at hdeep
  omega

/-- What has the shape of a node or a relationship is not given back as it is, since it becomes
less deep. -/
theorem toJson_ofJson_ne {members : Dict Json} (h : GraphShaped members) :
    toJson (ofJson (.obj members)) ≠ .obj members := by
  have hfits := Shape.fits_ofMembers members
  rw [ofJson]
  generalize Shape.ofMembers members = shape at hfits ⊢
  cases hfits with
  | node hentity | relationship hentity =>
    dsimp only
    rw [toJson, entriesAt_eq hentity.get?_properties]
    exact identified_ne hentity.get?_properties (by decide)
  | path => exact nofun
  | map hplain => exact absurd h hplain

/-- An object without one of the shapes is read as a map. -/
theorem ofJson_obj_of_not_graphShaped {members : Dict Json} (h : ¬ GraphShaped members) :
    ofJson (.obj members) = .map (ofMembers members) := by
  have hfits := Shape.fits_ofMembers members
  rw [ofJson]
  generalize Shape.ofMembers members = shape at hfits ⊢
  cases hfits with
  | node hentity hlabels => exact absurd (.node hentity hlabels) h
  | relationship hentity htype => exact absurd (.relationship hentity htype) h
  | path helements => exact absurd (.path helements) h
  | map => rfl

/-- A number is given back exactly if it is finite. -/
theorem ofBinary64_eq_float_iff (x : Binary64) :
    Json.ofBinary64 x = .float x ↔ x.isFinite = true := by
  unfold ofBinary64
  split
  · next h => exact iff_of_true rfl h
  · next h => exact iff_of_false nofun h

mutual

/-- Plain data with finite floats comes back as it was, and no other data does. -/
theorem toJson_ofJson_eq_self_iff (j : Json) :
    toJson (ofJson j) = j ↔ j.Plain ∧ j.FloatsFinite := by
  match j with
  | .null | .bool _ | .str _ => exact iff_of_true rfl ⟨trivial, trivial⟩
  | .int n =>
    rw [ofJson, ofInt]
    split
    · next h => exact iff_of_true rfl ⟨h, trivial⟩
    -- an integer beyond 64 bits comes back as a float or as null
    · next h =>
      refine iff_of_false ?_ fun hplain => h hplain.1
      rw [toJson, ofBinary64]
      split
      · exact nofun
      · exact nofun
  | .float x =>
    rw [ofJson, toJson, ofBinary64_eq_float_iff]
    exact (and_iff_right trivial).symm
  | .arr elems =>
    rw [ofJson, toJson, Json.arr.injEq]
    exact elemsToJson_ofElems_eq_self_iff elems
  | .obj members =>
    by_cases hshaped : GraphShaped members
    · exact iff_of_false (toJson_ofJson_ne hshaped) fun hplain => hplain.1.1 hshaped
    · have hmembers := entriesToJson_ofMembers_eq_self_iff members
      rw [ofJson_obj_of_not_graphShaped hshaped, toJson, Json.obj.injEq, hmembers, Plain,
        and_assoc]
      exact (and_iff_right hshaped).symm

/-- Elements are given back exactly if all of them are plain and finite. -/
theorem elemsToJson_ofElems_eq_self_iff (elems : List Json) :
    elemsToJson (ofElems elems) = elems ↔ ElemsPlain elems ∧ ElemsFinite elems := by
  match elems with
  | [] => exact iff_of_true rfl ⟨trivial, trivial⟩
  | j :: rest =>
    have hj := toJson_ofJson_eq_self_iff j
    have hrest := elemsToJson_ofElems_eq_self_iff rest
    rw [ofElems, elemsToJson, List.cons.injEq, hj, hrest]
    exact and_and_and_comm

/-- Members are given back exactly if all of them are plain and finite. -/
theorem entriesToJson_ofMembers_eq_self_iff (members : List (String × Json)) :
    entriesToJson (ofMembers members) = members ↔ MembersPlain members ∧ MembersFinite members := by
  match members with
  | [] => exact iff_of_true rfl ⟨trivial, trivial⟩
  | (k, j) :: rest =>
    have hj := toJson_ofJson_eq_self_iff j
    have hrest := entriesToJson_ofMembers_eq_self_iff rest
    rw [ofMembers, entriesToJson, List.cons.injEq, Prod.mk.injEq, hj, hrest, eq_self_iff_true,
      true_and]
    exact and_and_and_comm

end

end GraphValue

-- =================================================================== rows

namespace Row

open Json

/-- A row is given back exactly if its columns are plain and finite. -/
theorem toJson_ofMembers_eq_iff (row : Dict Json) :
    toJson (GraphValue.ofMembers row) = ofColumns row ↔ MembersPlain row ∧ MembersFinite row := by
  match row with
  | [] => exact iff_of_true rfl ⟨trivial, trivial⟩
  | [(column, j)] =>
    show (GraphValue.ofJson j).toJson = j ↔ (j.Plain ∧ True) ∧ j.FloatsFinite ∧ True
    rw [GraphValue.toJson_ofJson_eq_self_iff, and_true, and_true]
  | first :: second :: rest =>
    show Json.obj (GraphValue.entriesToJson (GraphValue.ofMembers (first :: second :: rest)))
      = .obj (first :: second :: rest) ↔ _
    rw [Json.obj.injEq, GraphValue.entriesToJson_ofMembers_eq_self_iff]

/-- **Plain rows come back unchanged.** All rows are decoded. A list of them comes back row by
row and in order, the only column of a row standing for the row, exactly if all values are
plain, with integers of 64 bits and finite floats. A single result is the first row of them in
the same way, or null if there is none. -/
theorem fieldValue_unchanged_iff (rows : List (Dict Json)) :
    ∃ decoded, rows.mapM (fun row => ofJson? (.obj row)) = some decoded
      ∧ (fieldValue true decoded = .arr (rows.map ofColumns)
        ↔ ∀ row ∈ rows, MembersPlain row ∧ MembersFinite row)
      ∧ (fieldValue false decoded = (rows.head?.map ofColumns).getD .null
        ↔ ∀ row ∈ rows.head?, MembersPlain row ∧ MembersFinite row) := by
  have hdecoded : rows.mapM (fun row => ofJson? (.obj row))
      = some (rows.map GraphValue.ofMembers) := List.mapM_pure
  refine ⟨_, hdecoded, ?_, ?_⟩
  · show Json.arr ((rows.map GraphValue.ofMembers).map toJson) = _ ↔ _
    rw [Json.arr.injEq, List.map_map, List.map_inj_left]
    exact forall₂_congr fun row _ => toJson_ofMembers_eq_iff row
  · cases rows with
    | nil => exact iff_of_true rfl nofun
    | cons row rest =>
      show toJson (GraphValue.ofMembers row) = ofColumns row ↔ _
      rw [toJson_ofMembers_eq_iff, List.head?_cons]
      exact ⟨fun h row' heq => Option.some.inj heq ▸ h, fun h => h row rfl⟩

end Row

end PropertyGraphQL
