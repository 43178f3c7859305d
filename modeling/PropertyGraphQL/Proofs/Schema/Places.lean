/-
What a document gives does not depend on where its parts stand in the text.

Definitions, fields, directives and their arguments carry the places where
they were read, and the places go into errors and nowhere else. Without them
(`unplaced`) a document is accepted if it was before, and gives the same
catalog (`sameSuccess_unplaced`). So documents may be compared whose texts are laid
out differently.
-/
import PropertyGraphQL.Model.Schema

namespace PropertyGraphQL

-- ========================================================== same success

/-- Both fail, or both succeed with the same result. -/
def SameSuccess {ε α : Type} (x y : Except ε α) : Prop := x.toOption = y.toOption

namespace SameSuccess

variable {ε α β γ : Type}

theorem refl (x : Except ε α) : SameSuccess x x := rfl

/-- Steps succeed alike if the first do, and the second whatever they are given. -/
theorem of_bind {x y : Except ε α} {f g : α → Except ε β} (h : SameSuccess x y)
    (hnext : ∀ a, SameSuccess (f a) (g a)) : SameSuccess (x >>= f) (y >>= g) := by
  cases x with
  | error e =>
    cases y with
    | error e' => rfl
    | ok b => cases h
  | ok a =>
    cases y with
    | error e' => cases h
    | ok b =>
      cases h
      exact hnext a

/-- Loops succeed alike if their steps do. -/
theorem of_foldlM {f : β → α → Except ε β} {g : β → γ → Except ε β} {r : γ → α}
    (h : ∀ b c, SameSuccess (f b (r c)) (g b c)) (cs : List γ) (b : β) :
    SameSuccess ((cs.map r).foldlM f b) (cs.foldlM g b) := by
  induction cs generalizing b with
  | nil => exact refl _
  | cons c rest ih =>
    rw [List.map_cons, List.foldlM_cons, List.foldlM_cons]
    exact of_bind (h b c) ih

/-- Mapped lists succeed alike if their elements do. -/
theorem of_mapM {f : α → Except ε β} {g : γ → Except ε β} {r : γ → α}
    (h : ∀ c, SameSuccess (f (r c)) (g c)) (cs : List γ) :
    SameSuccess ((cs.map r).mapM f) (cs.mapM g) := by
  induction cs with
  | nil => exact refl _
  | cons c rest ih =>
    rw [List.map_cons, List.mapM_cons, List.mapM_cons]
    exact of_bind (h c) fun b => of_bind ih fun bs => refl (pure (b :: bs))

end SameSuccess

-- ============================================================ directives

def DirectiveArgument.unplaced (a : DirectiveArgument) : DirectiveArgument :=
  { a with place := .start }

namespace Directive

def unplaced (d : Directive) : Directive :=
  ⟨d.name, d.arguments.map DirectiveArgument.unplaced, .start⟩

theorem find?_unplaced (directives : List Directive) (name : String) :
    find? (directives.map unplaced) name = (find? directives name).map unplaced :=
  List.find?_map

theorem argument?_unplaced (d : Directive) (name : String) :
    d.unplaced.argument? name = (d.argument? name).map DirectiveArgument.unplaced :=
  List.find?_map

theorem unique_unplaced (directives : List Directive) :
    unique (directives.map unplaced) = unique directives := by
  simp [unique, find?_unplaced]

/-- Whether an argument is a text does not depend on places. -/
theorem textArgument?_unplaced (d : Directive) (name : String) :
    SameSuccess (d.unplaced.textArgument? name) (d.textArgument? name) := by
  unfold textArgument?
  rw [argument?_unplaced]
  cases d.argument? name with
  | none => rfl
  | some a =>
    obtain ⟨name, value, place⟩ := a
    cases value <;> rfl

/-- What static parameters a directive has does not depend on places. -/
theorem staticParameters_unplaced (d : Directive) :
    SameSuccess d.unplaced.staticParameters d.staticParameters := by
  unfold staticParameters
  rw [argument?_unplaced]
  cases d.argument? "params" with
  | none => rfl
  | some a =>
    obtain ⟨name, value, place⟩ := a
    cases value <;> rfl

/-- Whether a directive passes through does not depend on places. -/
theorem passThrough_unplaced (d : Directive) :
    SameSuccess d.unplaced.passThrough d.passThrough := by
  unfold passThrough
  rw [argument?_unplaced]
  cases d.argument? "passThrough" with
  | none => rfl
  | some a =>
    obtain ⟨name, value, place⟩ := a
    cases value <;> rfl

/-- The statement of a field does not depend on places. -/
theorem customStatement?_unplaced (directives : List Directive) :
    SameSuccess (customStatement? (directives.map unplaced)) (customStatement? directives) := by
  unfold customStatement?
  rw [find?_unplaced]
  cases find? directives "cypher" with
  | none => rfl
  | some d =>
    refine .of_bind (d.textArgument?_unplaced "statement") fun statement? => ?_
    cases statement? with
    | none => rfl
    | some statement =>
      refine .of_bind d.staticParameters_unplaced fun parameters => ?_
      exact .of_bind d.passThrough_unplaced fun passThrough => .refl _

/-- The default of a field does not depend on places. -/
theorem defaultValue?_unplaced (directives : List Directive) :
    SameSuccess (defaultValue? (directives.map unplaced)) (defaultValue? directives) := by
  unfold defaultValue?
  rw [find?_unplaced]
  cases find? directives "defaultValue" with
  | none => rfl
  | some d =>
    simp only [Option.map_some, argument?_unplaced]
    cases d.argument? "value" with
    | none => rfl
    | some a => rfl

/-- The relationship of a field does not depend on places. -/
theorem relationship_unplaced (directives : List Directive) :
    SameSuccess (relationship (directives.map unplaced)) (relationship directives) := by
  have hname (d : Directive) (direction : Direction) :
      SameSuccess (do return (← d.unplaced.textArgument? "name", direction))
        (do return (← d.textArgument? "name", direction)) :=
    .of_bind (d.textArgument?_unplaced "name") fun name => .refl _
  unfold relationship
  rw [find?_unplaced, find?_unplaced, find?_unplaced]
  cases find? directives "relation" with
  | some d =>
    refine .of_bind (d.textArgument?_unplaced "name") fun name => ?_
    exact .of_bind (d.textArgument?_unplaced "direction") fun direction => .refl _
  | none =>
    cases find? directives "out" with
    | some d => exact hname d .outgoing
    | none =>
      cases find? directives "in" with
      | some d => exact hname d .incoming
      | none => rfl

end Directive

-- =========================================================== definitions

def FieldDefinition.unplaced (f : FieldDefinition) : FieldDefinition :=
  { f with directives := f.directives.map Directive.unplaced, place := .start }

def TypeBody.unplaced : TypeBody → TypeBody
  | .object interfaces fields => .object interfaces (fields.map FieldDefinition.unplaced)
  | .interface interfaces fields => .interface interfaces (fields.map FieldDefinition.unplaced)
  | body => body

def TypeDefinition.unplaced (d : TypeDefinition) : TypeDefinition :=
  { d with body := d.body.unplaced, place := .start }

/-- A definition, wherever its parts stand. -/
def SchemaItem.unplaced : SchemaItem → SchemaItem
  | .type d => .type d.unplaced
  | item => item

/-- A document, wherever its parts stand. -/
def SchemaDocument.unplaced (d : SchemaDocument) : SchemaDocument := d.map SchemaItem.unplaced

namespace Vocabulary

variable (v : Vocabulary)

theorem atPlace_sameSuccess {α : Type} (place place' : Position) (x : Except ModelError α) :
    SameSuccess (atPlace place x) (atPlace place' x) := by
  cases x <;> rfl

/-- A property is added alike wherever its field stands. -/
theorem addProperty_unplaced (t : EntityType) (f : FieldDefinition)
    (custom : Option CustomStatement) :
    SameSuccess (v.addProperty t f.unplaced custom) (v.addProperty t f custom) := by
  unfold addProperty FieldDefinition.unplaced
  refine .of_bind (Directive.defaultValue?_unplaced f.directives) fun default => ?_
  rw [Directive.unique_unplaced]
  exact .of_bind (atPlace_sameSuccess _ _ _) fun t => .refl _

/-- A relationship is added alike wherever its field stands. -/
theorem addRelationship_unplaced (t : EntityType) (f : FieldDefinition)
    (custom : Option CustomStatement) :
    SameSuccess (v.addRelationship t f.unplaced custom) (v.addRelationship t f custom) := by
  unfold addRelationship FieldDefinition.unplaced
  exact .of_bind (Directive.relationship_unplaced f.directives) fun _ => atPlace_sameSuccess _ _ _

/-- A field is added alike wherever it stands. -/
theorem addField_unplaced (t : EntityType) (f : FieldDefinition) :
    SameSuccess (v.addField t f.unplaced) (v.addField t f) := by
  refine .of_bind (Directive.customStatement?_unplaced f.directives) fun custom => ?_
  have htype : f.unplaced.type = f.type := rfl
  rw [htype]
  split
  · exact v.addProperty_unplaced t f custom
  · exact v.addRelationship_unplaced t f custom

theorem operation_unplaced (f : FieldDefinition) :
    SameSuccess (v.operation f.unplaced) (v.operation f) :=
  .of_bind (Directive.customStatement?_unplaced f.directives) fun _ => .refl _

/-- A root declares the same operations wherever it stands. -/
theorem operations_unplaced (body : TypeBody) :
    SameSuccess (v.operations body.unplaced) (v.operations body) := by
  cases body with
  | object interfaces fields => exact .of_mapM v.operation_unplaced fields
  | _ => rfl

/-- An entity is added alike wherever it stands. -/
theorem addEntity_unplaced (c : Catalog) (d : TypeDefinition) (isInterface : Bool)
    (interfaces : List String) (fields : List FieldDefinition) :
    SameSuccess
      (v.addEntity c d.unplaced isInterface interfaces (fields.map FieldDefinition.unplaced))
      (v.addEntity c d isInterface interfaces fields) := by
  have hname : d.unplaced.name = d.name := rfl
  have hextension : d.unplaced.isExtension = d.isExtension := rfl
  unfold addEntity
  rw [hname, hextension]
  split
  · rfl
  · exact .of_bind (.of_foldlM v.addField_unplaced fields _) fun t => .refl _

/-- A definition does the same wherever it stands. -/
theorem define_unplaced (c : Catalog) (item : SchemaItem) :
    SameSuccess (v.define c item.unplaced) (v.define c item) := by
  cases item with
  | roots query mutation => rfl
  | directive => rfl
  | type d =>
    show SameSuccess (if d.name = v.queryRoot then _ else if d.name = v.mutationRoot then _ else _)
      (if d.name = v.queryRoot then _ else if d.name = v.mutationRoot then _ else _)
    split
    · exact .of_bind (v.operations_unplaced d.body) fun ops => .refl _
    · split
      · exact .of_bind (v.operations_unplaced d.body) fun ops => .refl _
      · obtain ⟨name, isExtension, description, body, place⟩ := d
        cases body with
        | object interfaces fields => exact v.addEntity_unplaced c _ false interfaces fields
        | interface interfaces fields => exact v.addEntity_unplaced c _ true interfaces fields
        | _ => rfl

/-- The vocabulary of a document does not depend on places. -/
theorem ofDocument_unplaced (d : SchemaDocument) : ofDocument d.unplaced = ofDocument d := by
  have hadd (v : Vocabulary) (item : SchemaItem) : v.add item.unplaced = v.add item := by
    cases item with
    | roots query mutation => rfl
    | directive => rfl
    | type d =>
      obtain ⟨name, isExtension, description, body, place⟩ := d
      cases body with
      | _ => rfl
  unfold ofDocument SchemaDocument.unplaced
  rw [List.foldl_map]
  simp only [hadd]

end Vocabulary

/-- A document gives the same catalog without places. -/
theorem Catalog.sameSuccess_unplaced (d : SchemaDocument) :
    SameSuccess (ofDocument d.unplaced) (ofDocument d) := by
  unfold ofDocument
  rw [Vocabulary.ofDocument_unplaced]
  exact .of_foldlM (Vocabulary.define_unplaced _) d _

end PropertyGraphQL
