/-
A type that is added to in place, call after call.

The functions on types give the type with what was added, or an error. Here
they are done step by step to a type that stands somewhere (`Editing`): what
is written is written at once, and a failure later on does not take it back.
Every check comes before every write, so a call that fails has written
nothing, and one that succeeds leaves just what the function gives
(`Addition.on_perform`).

What a call can do is said once (`Added`). From that follows what it keeps:
the type stays consistent (`Consistent.added`) and only grows
(`Grows.of_added`). A relationship is what it was when it was first seen, but
for what later observations add; so its shape is that of the first
(`exists_firstObserved`).
-/
import Mathlib.Data.List.Induction
import PropertyGraphQL.Proofs.Schema.WellFormed

namespace PropertyGraphQL

/-- A type with a relationship under a name. -/
def EntityType.withRelationship (t : EntityType) (key : String) (r : RelationshipField) :
    EntityType :=
  { t with relationships := t.relationships.insert key r }

-- ================================================================= in place

/-- A call on a type that is changed where it stands. -/
abbrev Editing (α : Type) := ExceptT ModelError (StateM EntityType) α

namespace Editing

/-- What the call answers, and the type behind it. -/
def on {α : Type} (call : Editing α) (t : EntityType) : Except ModelError α × EntityType :=
  call.run.run t

def addLabel (label : String) : Editing Unit := do
  if label ≠ (← get).name then
    modify fun t =>
      { t with labels := if label ∈ t.labels then t.labels else t.labels ++ [label] }

def addProperty (p : PropertyField) : Editing Unit := do
  let t ← get
  if t.hasField p.name then
    throw (.duplicateField t.name p.name)
  modify fun t => { t with properties := t.properties.insert p.name p }

/-- Change the relationship under a name where it stands. -/
def alter (key : String) (change : RelationshipField → RelationshipField) : Editing Unit :=
  modify fun t =>
    match t.relationship? key with
    | some r => t.withRelationship key (change r)
    | none => t

/-- Write what a further observation adds to a relationship, one part after the other. -/
def enrich (r : RelationshipField) : Editing Unit := do
  alter r.name fun old => { old with multi := old.multi || r.multi }
  alter r.name fun old => { old with nonNullDepth := max old.nonNullDepth r.nonNullDepth }
  alter r.name fun old => { old with custom := old.custom <|> r.custom }
  alter r.name fun old => { old with description := old.description <|> r.description }
  forM r.arguments fun entry =>
    alter r.name fun old =>
      { old with arguments := old.arguments.insertNew entry.1 entry.2 }

def mergeRelationship (r : RelationshipField) : Editing Unit := do
  let t ← get
  if t.properties.contains r.name then
    throw (.duplicateField t.name r.name)
  match t.relationship? r.name with
  | some existing =>
      if existing.shape ≠ r.shape then
        throw (.relationshipMismatch t.name existing.name existing.shape r.shape)
      enrich r
  | none => modify fun t => t.withRelationship r.name r

/-- Tells whether the property was accepted. -/
def registerIdProperty (field : String) : Editing Bool := do
  if (← get).idProperty.isSome then
    return false
  modify fun t => { t with idProperty := some field }
  return true

-- ---------------------------------------------------------- what they come to

/-- A call that gives a type or an error, done to the type itself. -/
def settle (t : EntityType) : Except ModelError EntityType → Except ModelError Unit × EntityType
  | .ok t' => (.ok (), t')
  | .error e => (.error e, t)

section

variable {α β : Type} (t : EntityType)

@[simp] theorem on_pure (a : α) : (pure a : Editing α).on t = (.ok a, t) := rfl

@[simp] theorem on_get : (get : Editing EntityType).on t = (.ok t, t) := rfl

@[simp] theorem on_modify (f : EntityType → EntityType) :
    (modify f : Editing PUnit).on t = (.ok (), f t) := rfl

@[simp] theorem on_throw (e : ModelError) : (throw e : Editing α).on t = (.error e, t) := rfl

/-- The second call finds the type as the first one leaves it, unless that fails. -/
theorem on_bind (call : Editing α) (next : α → Editing β) :
    (call >>= next).on t =
      match call.on t with
      | (.ok a, t') => (next a).on t'
      | (.error e, t') => (.error e, t') := by
  show (ExceptT.bindCont next (call.on t).1).run (call.on t).2 = _
  cases call.on t with
  | mk result t' => cases result <;> rfl

/-- After a call that succeeds the next one goes on. -/
theorem on_bind_of_ok {call : Editing α} {t' : EntityType} {a : α} {t : EntityType}
    (h : call.on t = (.ok a, t')) (next : α → Editing β) :
    (call >>= next).on t = (next a).on t' := by
  rw [on_bind, h]

@[simp] theorem on_ite (c : Prop) [Decidable c] (x y : Editing α) :
    (if c then x else y).on t = if c then x.on t else y.on t := by
  split <;> rfl

end

variable {t : EntityType}

/-- To add a label in place gives the type with the label. -/
theorem on_addLabel (label : String) :
    (addLabel label).on t = settle t (.ok (t.addLabel label)) := by
  unfold addLabel EntityType.addLabel settle
  rw [on_bind_of_ok (on_get t)]
  by_cases hname : label = t.name
  · simp [hname]
  · by_cases hmem : label ∈ t.labels
    · simp [hname, hmem]
    · simp [hname, hmem]

/-- To add a property in place gives the type with the property, or leaves it as it is. -/
theorem on_addProperty (p : PropertyField) :
    (addProperty p).on t = settle t (t.addProperty p) := by
  unfold addProperty EntityType.addProperty
  rw [on_bind_of_ok (on_get t)]
  by_cases h : t.hasField p.name = true
  · simp [h, settle]
  · simp [h, settle]

section

-- A relationship that is written to several times is written once, with all of it.

variable {key : String} {existing r : RelationshipField}

/-- To alter a relationship that is there puts another one in its place. -/
theorem on_alter (h : t.relationship? key = some r)
    (change : RelationshipField → RelationshipField) :
    (alter key change).on t = (.ok (), t.withRelationship key (change r)) := by
  unfold alter
  rw [on_modify, h]

/-- A relationship that was altered may be altered again. -/
theorem on_alter_again (change : RelationshipField → RelationshipField) :
    (alter key change).on (t.withRelationship key r)
      = (.ok (), t.withRelationship key (change r)) := by
  have hthere : (t.withRelationship key r).relationship? key = some r :=
    Dict.get?_insert_self _ _ _
  rw [on_alter hthere, EntityType.withRelationship, EntityType.withRelationship,
    Dict.insert_insert_self]
  rfl

/-- New arguments are added one after the other. -/
theorem on_alterArguments (more : List (String × DeclaredArgument)) :
    (forM more fun entry => alter key fun old =>
        { old with arguments := old.arguments.insertNew entry.1 entry.2 }).on
        (t.withRelationship key r)
      = (.ok (), t.withRelationship key { r with
          arguments := more.foldl (fun d entry => d.insertNew entry.1 entry.2) r.arguments }) := by
  induction more generalizing r with
  | nil => rfl
  | cons entry rest ih =>
    rw [List.forM_cons, on_bind_of_ok (on_alter_again _)]
    exact ih

/-- To enrich a relationship in place gives the enriched one. -/
theorem on_enrich (h : t.relationship? r.name = some existing) :
    (enrich r).on t = (.ok (), t.withRelationship r.name (existing.enrich r)) := by
  unfold enrich
  rw [on_bind_of_ok (on_alter h _), on_bind_of_ok (on_alter_again _),
    on_bind_of_ok (on_alter_again _), on_bind_of_ok (on_alter_again _), on_alterArguments]
  rfl

end

/-- To merge a relationship in place gives the type with it, or leaves the type as it is. -/
theorem on_mergeRelationship (r : RelationshipField) :
    (mergeRelationship r).on t = settle t (t.mergeRelationship r) := by
  unfold mergeRelationship EntityType.mergeRelationship
  rw [on_bind_of_ok (on_get t)]
  by_cases hproperty : t.properties.contains r.name = true
  · simp [hproperty, settle]
  · cases hexisting : t.relationship? r.name with
    | none => simp [hproperty, settle, EntityType.withRelationship]
    | some existing =>
      by_cases hshape : existing.shape = r.shape
      · simp [hproperty, hshape, settle, on_enrich hexisting, EntityType.withRelationship]
      · simp [hproperty, hshape, settle]

/-- To register what identifies the nodes gives the key that does, and the type with it. -/
theorem on_registerIdProperty (field : String) :
    (registerIdProperty field).on t
      = (.ok (t.registerIdProperty field).1, (t.registerIdProperty field).2) := by
  unfold registerIdProperty EntityType.registerIdProperty
  rw [on_bind_of_ok (on_get t)]
  cases hid : t.idProperty with
  | none => rfl
  | some key => rfl

end Editing

-- =================================================================== calls

/-- A call that adds to a type. -/
inductive Addition where
  | label (label : String)
  | property (p : PropertyField)
  | relationship (r : RelationshipField)
  | idProperty (field : String)

/-- What the functions on types make of a call. -/
def EntityType.add (t : EntityType) : Addition → Except ModelError EntityType
  | .label label => .ok (t.addLabel label)
  | .property p => t.addProperty p
  | .relationship r => t.mergeRelationship r
  | .idProperty field => .ok (t.registerIdProperty field).2

namespace Addition

/-- The call in place. -/
def perform : Addition → Editing Unit
  | label l => Editing.addLabel l
  | property p => Editing.addProperty p
  | relationship r => Editing.mergeRelationship r
  | idProperty field => do let _accepted ← Editing.registerIdProperty field

/-- In place a call leaves what the functions on types give, or what was there. -/
theorem on_perform (call : Addition) (t : EntityType) :
    call.perform.on t = Editing.settle t (t.add call) := by
  cases call with
  | label l => exact Editing.on_addLabel l
  | property p => exact Editing.on_addProperty p
  | relationship r => exact Editing.on_mergeRelationship r
  | idProperty field => exact Editing.on_bind_of_ok (Editing.on_registerIdProperty field) _

/-- A call that fails has written nothing. -/
theorem eq_of_error {call : Addition} {t : EntityType} {e : ModelError}
    (h : (call.perform.on t).1 = .error e) : (call.perform.on t).2 = t := by
  rw [on_perform] at h ⊢
  cases hadd : t.add call with
  | ok t' =>
    rw [hadd] at h
    cases h
  | error e' => rfl

end Addition

/-- The type behind some calls, whichever of them fail. -/
def EntityType.after (t : EntityType) (calls : List Addition) : EntityType :=
  calls.foldl (fun t call => (call.perform.on t).2) t

/-- All that a call can do to a type. -/
inductive Added (t : EntityType) : Addition → EntityType → Prop
  | refused {call : Addition} {e : ModelError} (h : t.add call = .error e) : Added t call t
  | known {label : String} (h : label = t.name ∨ label ∈ t.labels) : Added t (.label label) t
  | label {label : String} (h : ¬ (label = t.name ∨ label ∈ t.labels)) :
      Added t (.label label) { t with labels := t.labels ++ [label] }
  | property {p : PropertyField} (hfree : p.name ∉ t.properties.keys)
      (hapart : p.name ∉ t.relationships.keys) :
      Added t (.property p) { t with properties := t.properties.insert p.name p }
  | relationship {r : RelationshipField} (hfree : r.name ∉ t.properties.keys)
      (hnew : t.relationship? r.name = none) :
      Added t (.relationship r) (t.withRelationship r.name r)
  | merged {r existing : RelationshipField} (hfree : r.name ∉ t.properties.keys)
      (hexisting : t.relationship? r.name = some existing) (hshape : existing.shape = r.shape) :
      Added t (.relationship r) (t.withRelationship r.name (existing.enrich r))
  | identified {field : String} (h : t.idProperty = none) :
      Added t (.idProperty field) { t with idProperty := some field }
  | ignored {field old : String} (h : t.idProperty = some old) : Added t (.idProperty field) t

namespace Addition

/-- What a call adds is one of the four things. -/
theorem added_of_ok {call : Addition} {t t' : EntityType} (h : t.add call = .ok t') :
    Added t call t' := by
  cases call with
  | label l =>
    cases h
    unfold EntityType.addLabel
    split
    · next hknown => exact .known hknown
    · next hnew => exact .label hnew
  | property p =>
    obtain ⟨hfree, hapart, rfl⟩ := EntityType.addProperty_eq_ok_iff.mp h
    exact .property hfree hapart
  | relationship r =>
    obtain ⟨hfree, -⟩ := EntityType.mergeRelationship_eq_ok h
    rw [EntityType.add] at h
    -- a second relationship of a name is merged if its shape is the same, and refused
    -- otherwise
    cases hexisting : t.relationship? r.name with
    | none =>
      rw [EntityType.mergeRelationship_of_new hfree hexisting] at h
      cases h
      exact .relationship hfree hexisting
    | some existing =>
      by_cases hshape : existing.shape = r.shape
      · rw [EntityType.mergeRelationship_of_same hfree hexisting hshape] at h
        cases h
        exact .merged hfree hexisting hshape
      · rw [EntityType.mergeRelationship_of_other hfree hexisting hshape] at h
        cases h
  | idProperty field =>
    cases h
    unfold EntityType.registerIdProperty
    cases hid : t.idProperty with
    | none => exact .identified hid
    | some old => exact .ignored hid

/-- A call that is performed in place adds one of these things, or nothing if it fails. -/
theorem added (call : Addition) (t : EntityType) : Added t call (call.perform.on t).2 := by
  rw [on_perform]
  cases h : t.add call with
  | ok t' => exact added_of_ok h
  | error e => exact .refused h

end Addition

-- ============================================================== what is kept

namespace EntityType

/-- A field is a property or a relationship and stands under its name, and the name
of the type is none of its further labels. Nothing is there twice. -/
structure Consistent (t : EntityType) : Prop where
  apart : ∀ key ∈ t.properties.keys, key ∉ t.relationships.keys
  property : ∀ entry ∈ t.properties, entry.2.name = entry.1
  relationship : ∀ entry ∈ t.relationships, entry.2.name = entry.1
  label : t.name ∉ t.labels
  properties_nodup : t.properties.keys.Nodup
  relationships_nodup : t.relationships.keys.Nodup
  labels_nodup : t.labels.Nodup

/-- Behind a call, or several, there is all that was there: each relationship with
its shape and at least as much of it, and what identifies the nodes. -/
structure Grows (t t' : EntityType) : Prop where
  name : t'.name = t.name
  relationship : ∀ key r, t.relationship? key = some r → ∃ r', t'.relationship? key = some r'
    ∧ r'.shape = r.shape ∧ (r.multi = true → r'.multi = true)
    ∧ r.nonNullDepth ≤ r'.nonNullDepth
  idProperty : ∀ field, t.idProperty = some field → t'.idProperty = some field

/-- A type without fields is consistent. -/
theorem consistent_blank (name : String) : (blank name).Consistent where
  apart _ h := absurd h List.not_mem_nil
  property := List.forall_mem_nil _
  relationship := List.forall_mem_nil _
  label := List.not_mem_nil
  properties_nodup := List.nodup_nil
  relationships_nodup := List.nodup_nil
  labels_nodup := List.nodup_nil

variable {t t' t'' : EntityType} {call : Addition}

/-- A relationship may stand under its name where no property does. -/
theorem Consistent.withRelationship (h : t.Consistent) {key : String} {r : RelationshipField}
    (hfree : key ∉ t.properties.keys) (hname : r.name = key) :
    (t.withRelationship key r).Consistent := by
  refine { h with apart := ?_, relationship := ?_, relationships_nodup := ?_ }
  · intro other hother hmem
    rcases (Dict.mem_keys_insert _ _ _ _).mp hmem with rfl | hmem
    · exact hfree hother
    · exact h.apart other hother hmem
  · intro entry hentry
    rcases Dict.mem_of_mem_insert hentry with rfl | hentry
    · exact hname
    · exact h.relationship entry hentry
  · exact Dict.nodup_keys_insert h.relationships_nodup _ _

/-- Whatever is added keeps a type consistent. -/
theorem Consistent.added (h : t.Consistent) (hadded : Added t call t') : t'.Consistent := by
  cases hadded with
  | refused | known | ignored => exact h
  | identified => exact { h with }
  | label hnew =>
    obtain ⟨hname, hlabels⟩ := not_or.mp hnew
    refine { h with label := ?_, labels_nodup := ?_ }
    · intro hmem
      rcases List.mem_append.mp hmem with hmem | hmem
      · exact h.label hmem
      · exact hname (List.mem_singleton.mp hmem).symm
    -- the label is new, so it stands there once
    · exact List.nodup_append.mpr ⟨h.labels_nodup, List.nodup_singleton _, fun l hl l' hl' heq =>
        hlabels (List.mem_singleton.mp hl' ▸ heq ▸ hl)⟩
  | property hfree hapart =>
    refine { h with apart := ?_, property := ?_, properties_nodup := ?_ }
    · intro key hkey
      rcases (Dict.mem_keys_insert _ _ _ _).mp hkey with rfl | hkey
      · exact hapart
      · exact h.apart key hkey
    · intro entry hentry
      rcases Dict.mem_of_mem_insert hentry with rfl | hentry
      · rfl
      · exact h.property entry hentry
    · exact Dict.nodup_keys_insert h.properties_nodup _ _
  | relationship hfree => exact h.withRelationship hfree rfl
  | merged hfree hexisting =>
    exact h.withRelationship hfree (h.relationship _ (Dict.mem_of_get? hexisting))

namespace Grows

theorem refl (t : EntityType) : t.Grows t :=
  ⟨rfl, fun _ r h => ⟨r, h, rfl, id, Nat.le_refl _⟩, fun _ h => h⟩

/-- A type that grows twice grows. -/
theorem trans (h : t.Grows t') (h' : t'.Grows t'') : t.Grows t'' where
  name := h'.name.trans h.name
  relationship key r hr := by
    obtain ⟨r', hr', hshape, hmulti, hdepth⟩ := h.relationship key r hr
    obtain ⟨r'', hr'', hshape', hmulti', hdepth'⟩ := h'.relationship key r' hr'
    exact ⟨r'', hr'', hshape'.trans hshape, hmulti' ∘ hmulti, Nat.le_trans hdepth hdepth'⟩
  idProperty field hfield := h'.idProperty field (h.idProperty field hfield)

/-- A relationship is set where there was none, or to the one there with more to it. -/
theorem withRelationship {key : String} {r : RelationshipField}
    (h : ∀ existing, t.relationship? key = some existing → r.shape = existing.shape
      ∧ (existing.multi = true → r.multi = true) ∧ existing.nonNullDepth ≤ r.nonNullDepth) :
    t.Grows (t.withRelationship key r) where
  name := rfl
  relationship other r' hr' := by
    rw [EntityType.withRelationship, relationship?, Dict.get?_insert]
    split
    · next heq => exact ⟨r, rfl, h r' (heq ▸ hr')⟩
    · exact ⟨r', hr', rfl, id, Nat.le_refl _⟩
  idProperty _ h := h

/-- Whatever is added makes a type grow. -/
theorem of_added (hadded : Added t call t') : t.Grows t' := by
  cases hadded with
  | refused | known | ignored => exact refl t
  | label | property => exact { refl t with }
  | relationship hfree hnew => exact withRelationship fun existing h => by cases hnew.symm.trans h
  | @merged r existing hfree hexisting hshape =>
    refine withRelationship fun other hother => ?_
    cases hexisting.symm.trans hother
    refine ⟨rfl, fun hmulti => ?_, Nat.le_max_left _ _⟩
    exact Bool.or_eq_true_iff.mpr (.inl hmulti)
  | identified hid => exact { refl t with idProperty := fun field h => by cases hid.symm.trans h }

end Grows

theorem after_append (t : EntityType) (calls : List Addition) (call : Addition) :
    t.after (calls ++ [call]) = (call.perform.on (t.after calls)).2 :=
  List.foldl_concat _ _ _ _

/-- After any calls a type is consistent. -/
theorem Consistent.after (h : t.Consistent) (calls : List Addition) :
    (t.after calls).Consistent := by
  induction calls generalizing t with
  | nil => exact h
  | cons call rest ih => exact ih (h.added (call.added t))

/-- After any calls a type has grown. -/
theorem grows_after (t : EntityType) (calls : List Addition) : t.Grows (t.after calls) := by
  induction calls generalizing t with
  | nil => exact .refl t
  | cons call rest ih => exact (Grows.of_added (call.added t)).trans (ih _)

-- ========================================================== first observations

/-- Of the calls that observe a relationship of this name, this is the first that does
not fail. -/
def FirstObserved (t : EntityType) (calls : List Addition) (first : RelationshipField) : Prop :=
  ∃ earlier later, calls = earlier ++ .relationship first :: later
    ∧ (t.after earlier).relationship? first.name = none
    ∧ (t.after (earlier ++ [.relationship first])).relationship? first.name = some first

/-- Where there was no relationship, only its observation brings one. -/
theorem eq_relationship_of_added {key : String} {r : RelationshipField} (hadded : Added t call t')
    (hbefore : t.relationship? key = none) (hafter : t'.relationship? key = some r) :
    call = .relationship r ∧ r.name = key := by
  cases hadded with
  | refused | known | label | property | identified | ignored =>
    cases hbefore.symm.trans hafter
  | @relationship r' hfree hnew =>
    rw [withRelationship, relationship?, Dict.get?_insert] at hafter
    split at hafter
    · next hname =>
      cases hafter
      exact ⟨rfl, hname⟩
    · cases hbefore.symm.trans hafter
  | @merged r' existing hfree hexisting hshape =>
    rw [withRelationship, relationship?, Dict.get?_insert] at hafter
    split at hafter
    · next hname =>
      rw [hname, hbefore] at hexisting
      cases hexisting
    · cases hbefore.symm.trans hafter

/-- A relationship that was not there at first has the shape of its first observation. -/
theorem exists_firstObserved {key : String} {r : RelationshipField} (calls : List Addition)
    (hnew : t.relationship? key = none) (hr : (t.after calls).relationship? key = some r) :
    ∃ first, first.name = key ∧ t.FirstObserved calls first ∧ r.shape = first.shape := by
  induction calls using List.reverseRecOn generalizing r with
  | nil => cases hnew.symm.trans hr
  | append_singleton calls call ih =>
    rw [after_append] at hr
    have hadded := call.added (t.after calls)
    cases hbefore : (t.after calls).relationship? key with
    | none =>
      obtain ⟨rfl, rfl⟩ := eq_relationship_of_added hadded hbefore hr
      refine ⟨r, rfl, ⟨calls, [], rfl, hbefore, ?_⟩, rfl⟩
      rw [after_append]
      exact hr
    | some old =>
      obtain ⟨first, hname, ⟨earlier, later, hcalls, hfirst⟩, hshape⟩ := ih hbefore
      obtain ⟨r', hr', hshape', -⟩ := (Grows.of_added hadded).relationship key old hbefore
      cases hr.symm.trans hr'
      refine ⟨first, hname, ⟨earlier, later ++ [call], ?_, hfirst⟩, hshape'.trans hshape⟩
      rw [hcalls, List.append_assoc, List.cons_append]

/-- **A type keeps what it should, whatever is added to it.** Behind any calls on a blank
type it is consistent, and every relationship has the shape of its first observation.
Behind any further calls there is all that was there. A call does in place what the
function on types says, and one that fails leaves the type exactly as it was. -/
theorem additions_keep (name : String) (calls : List Addition) :
    let t := (blank name).after calls
    t.Consistent
      ∧ (∀ key r, t.relationship? key = some r → ∃ first, first.name = key
          ∧ (blank name).FirstObserved calls first ∧ r.shape = first.shape)
      ∧ (∀ more, t.Grows (t.after more))
      ∧ ∀ call : Addition, call.perform.on t = Editing.settle t (t.add call)
          ∧ ∀ e, (call.perform.on t).1 = .error e → (call.perform.on t).2 = t :=
  ⟨(consistent_blank name).after calls,
    fun _ _ hr => exists_firstObserved calls rfl hr,
    grows_after _,
    fun call => ⟨call.on_perform _, fun _ => Addition.eq_of_error⟩⟩

/-- Somebody acts in a film and then in several; that they are in love with one as well
is refused, and leaves the type as it was. -/
theorem additions_keep_movies :
    let shape : RelationshipShape := ⟨.outgoing, "ACTED_IN", "Movie"⟩
    let single : RelationshipField := .plain "movies" shape false
    let loved : RelationshipField := .plain "movies" ⟨.outgoing, "LOVES", "Movie"⟩ false
    let t := (blank "Person").after
      [.relationship single, .idProperty "name", .relationship { single with multi := true }]
    t.Consistent ∧ t.idProperty = some "name"
      ∧ (t.relationship? "movies").map (fun r => (r.shape, r.multi)) = some (shape, true)
      ∧ (Addition.perform (.relationship loved)).on t
          = (.error (.relationshipMismatch "Person" "movies" shape loved.shape), t) := by
  intro shape single loved t
  obtain ⟨hconsistent, -, -, hcall⟩ := additions_keep "Person"
    [.relationship single, .idProperty "name", .relationship { single with multi := true }]
  refine ⟨hconsistent, by decide +kernel, by decide +kernel, ?_⟩
  have herror : ((Addition.perform (.relationship loved)).on t).1
      = .error (.relationshipMismatch "Person" "movies" shape loved.shape) := by decide +kernel
  exact Prod.ext herror ((hcall (.relationship loved)).2 _ herror)

end EntityType

end PropertyGraphQL
