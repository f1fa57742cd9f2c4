import Clerkenwell.Codegen.SchemaPaths
import Clerkenwell.Codegen.SettledNodes

/-!
# Descents through a schema

Collecting the paths of a schema goes into the items of its arrays and the
members of its closed objects, following references.  It ends just where none
of these descents is endless.
-/

namespace Clerkenwell.Codegen

open Clerkenwell.Foundation Running

section Descents

variable (definition : Sections)

/-- Whether a schema's chain of references ends at another. -/
inductive LeadsTo : Members → Members → Prop where
  | here {schema : Members}
      (ends : ∀ reference, schema.get? "$ref" ≠ some (.string reference)) :
      LeadsTo schema schema
  | along {schema next target : Members} {name : String}
      (reference : localReferenceName (schema.get? "$ref") = some name)
      (entry : definition.def? name = some next) (rest : LeadsTo next target) :
      LeadsTo schema target

/-- Whether the paths of a schema go on with those of another. -/
inductive Descends (raw : Members) : Members → Prop where
  | items {schema items item : Members} (leads : LeadsTo definition raw schema)
      (array : arrayItems schema = some items)
      (item_leads : LeadsTo definition items item)
      (object : hasType item "object" = true) : Descends raw item
  | member {schema properties child : Members} {name : String}
      (leads : LeadsTo definition raw schema) (plain : arrayItems schema = none)
      (closed : addressableMembers schema = some properties)
      (within : (name, Json.object child) ∈ properties) : Descends raw child

/-- Whether no descent from a schema is endless. -/
def DescentsEnd (schema : Members) : Prop :=
  Acc (fun inner outer => Descends definition outer inner) schema

end Descents

variable {scientific : Scientific} {definition : Sections} {schema : Members}

/-! ## Following a chain -/

theorem leadsTo_of_dereferenceFrom {reached : Option String} {fuel : Nat}
    {ending : Option String × Members}
    (followed : Succeeds (dereferenceFrom definition reached fuel schema) ending) :
    LeadsTo definition schema ending.2 := by
  induction fuel generalizing reached schema with
  | zero => cases followed
  | succ fuel inductionHypothesis =>
      rw [dereferenceFrom] at followed
      split at followed
      · obtain ⟨name, named, followed⟩ := (succeeds_bind _ _ _).mp followed
        obtain ⟨next, found, followed⟩ := (succeeds_bind _ _ _).mp followed
        rw [succeeds_settled] at named found
        exact LeadsTo.along (schemaRefName_ok named).1 (expect_eq_ok found)
          (inductionHypothesis followed)
      · next other =>
        obtain rfl := (succeeds_pure _ _).mp followed
        exact LeadsTo.here other

theorem leadsTo_of_dereference {fuel : Nat} {target : Members}
    (followed : Succeeds (dereference definition fuel schema) target) :
    LeadsTo definition schema target := by
  obtain ⟨ending, reached, same⟩ := (succeeds_bind _ _ _).mp followed
  obtain rfl := (succeeds_pure _ _).mp same
  exact leadsTo_of_dereferenceFrom reached

/-! ## Where every descent ends -/

/-- Collecting the paths of a schema none of whose descents is endless settles. -/
theorem collect_settles (followable : Followable definition)
    (ends : DescentsEnd definition schema) (path : String) :
    Settles IsRefusal fun fuel =>
      collectCollaborationSchemaPaths definition fuel schema path := by
  induction ends generalizing path with
  | intro schema _ inductionHypothesis =>
    refine settles_of_succ rfl ?_
    simp only [collectCollaborationSchemaPaths]
    refine (dereference_settles followable schema).bind fun target comes => ?_
    obtain ⟨_, followed⟩ := comes
    have leads := leadsTo_of_dereference followed
    split
    · next items array =>
      refine (dereference_settles followable items).bind fun item comes => ?_
      obtain ⟨_, followed⟩ := comes
      have item_leads := leadsTo_of_dereference followed
      split
      · next object =>
        refine (inductionHypothesis item
          (.items leads array item_leads object) _).bind fun _ _ => ?_
        exact settles_pure _
      · exact settles_pure _
    · next plain =>
      split
      · exact settles_pure _
      · next properties closed =>
        refine Settles.bind (settles_mapM properties ?_)
          fun _ _ => settles_pure _
        rintro ⟨name, child⟩ within
        cases child with
        | object members =>
            exact inductionHypothesis members
              (.member leads plain closed within) _
        | _ => exact settles_pure _

/-- A greater bound never changes what collecting paths comes to. -/
theorem collect_steady (followable : Followable definition) (schema : Members)
    (path : String) :
    Steady fun fuel =>
      collectCollaborationSchemaPaths definition fuel schema path := by
  intro fuel
  induction fuel generalizing schema path with
  | zero => exact below_pending _
  | succ fuel inductionHypothesis =>
      simp only [collectCollaborationSchemaPaths]
      refine ((dereference_settles followable schema).steady fuel).bind
        fun target _ => ?_
      split
      · next items array =>
        refine ((dereference_settles followable items).steady fuel).bind
          fun item _ => ?_
        split
        · exact (inductionHypothesis item _).bind fun _ _ => Below.refl _
        · exact Below.refl _
      · split
        · exact Below.refl _
        · next properties closed =>
          refine (Below.mapM properties ?_).bind fun _ _ => Below.refl _
          rintro ⟨name, child⟩ -
          cases child with
          | object members => exact inductionHypothesis members _
          | _ => exact Below.refl _

/-! ## Checked nodes -/

/-- Whether a schema is a node whose check succeeds. -/
def CheckedNode (scientific : Scientific) (definition : Sections)
    (schema : Members) : Prop :=
  ∃ fuel context, Succeeds (checkSchemaNode scientific definition fuel
    (some (.object schema)) context) ⟨⟩

/-- Whether a schema is a node whose check at a place succeeds. -/
def CheckedAt (scientific : Scientific) (definition : Sections)
    (context : String) (schema : Members) : Prop :=
  ∃ fuel, Succeeds (checkSchemaNode scientific definition fuel
    (some (.object schema)) context) ⟨⟩

theorem CheckedAt.node {context : String}
    (checked : CheckedAt scientific definition context schema) :
    CheckedNode scientific definition schema := by
  obtain ⟨fuel, succeeds⟩ := checked
  exact ⟨fuel, context, succeeds⟩

theorem CheckedNode.placed (checked : CheckedNode scientific definition schema) :
    ∃ context, CheckedAt scientific definition context schema := by
  obtain ⟨fuel, context, succeeds⟩ := checked
  exact ⟨context, fuel, succeeds⟩

/-- Whether every entry is a node whose check succeeds. -/
def EntriesChecked (scientific : Scientific) (definition : Sections) : Prop :=
  ∀ name target, definition.def? name = some target →
    CheckedNode scientific definition target

theorem entriesChecked_of_checked {fuel : Nat}
    (checked : Succeeds (checkDefinitions scientific definition fuel) ⟨⟩) :
    EntriesChecked scientific definition := by
  intro name target found
  obtain ⟨within, node⟩ := checkDefinitions_def? checked found
  exact ⟨within, _, node⟩

/-- A checked reference names an entry. -/
theorem CheckedNode.reference {value : Json}
    (checked : CheckedNode scientific definition schema)
    (held : schema.get? "$ref" = some value) :
    ∃ name next, schemaRefName definition schema "collaboration schema" = .ok name
      ∧ definition.def? name = some next := by
  obtain ⟨fuel, context, succeeds⟩ := checked
  cases fuel with
  | zero => cases succeeds
  | succ fuel =>
      rw [checkSchemaNode] at succeeds
      obtain ⟨⟨⟩, -, succeeds⟩ := (succeeds_bind _ _ _).mp succeeds
      rw [held] at succeeds
      simp only [Option.isSome_some, if_true] at succeeds
      unfold checkReference at succeeds
      split at succeeds
      · cases succeeds
      · rw [discard_eq] at succeeds
        obtain ⟨⟨⟩, named, -⟩ := (succeeds_bind _ _ _).mp succeeds
        obtain ⟨name, named, -⟩ := (succeeds_bind _ _ _).mp named
        rw [succeeds_settled] at named
        obtain ⟨next, found⟩ := (schemaRefName_ok named).2
        exact ⟨name, next, schemaRefName_of_ok named _, found⟩

/-- The chain of a checked node is followed to one that is no reference. -/
theorem dereferenceFrom_succeeds {reached : Option String} {fuel : Nat}
    (entries : EntriesChecked scientific definition)
    (checked : CheckedNode scientific definition schema)
    (ended : Ended (dereferenceFrom definition reached fuel schema)) :
    ∃ ending, Succeeds (dereferenceFrom definition reached fuel schema) ending
      ∧ CheckedNode scientific definition ending.2
      ∧ ending.2.get? "$ref" = none := by
  induction fuel generalizing reached schema with
  | zero => exact absurd ended not_ended_pending
  | succ fuel inductionHypothesis =>
      cases held : schema.get? "$ref" with
      | none =>
          refine ⟨(reached, schema), ?_, checked, held⟩
          rw [dereferenceFrom, held]
          rfl
      | some value =>
          obtain ⟨name, next, named, found⟩ := checked.reference held
          have step : dereferenceFrom definition reached (fuel + 1) schema
              = dereferenceFrom definition (some name) fuel next := by
            have reference := (schemaRefName_ok named).1
            rw [held] at reference
            cases value with
            | string text =>
                rw [dereferenceFrom, held]
                simp only [named]
                rw [settled_bind_ok, found]
                rfl
            | _ => cases reference
          rw [step] at ended ⊢
          exact inductionHypothesis (entries name next found) ended

theorem dereference_succeeds {fuel : Nat}
    (entries : EntriesChecked scientific definition)
    (checked : CheckedNode scientific definition schema)
    (ended : Ended (dereference definition fuel schema)) :
    ∃ target, Succeeds (dereference definition fuel schema) target
      ∧ CheckedNode scientific definition target
      ∧ target.get? "$ref" = none := by
  obtain ⟨first, -⟩ := (ended_bind _ _).mp ended
  obtain ⟨ending, followed, node, plain⟩ :=
    dereferenceFrom_succeeds entries checked first
  exact ⟨ending.2, (succeeds_bind _ _ _).mpr ⟨ending, followed, rfl⟩, node,
    plain⟩

/-! ## Within a checked node -/

section Within

variable {fuel : Nat} {context : String}
  {checkNode : Option Json → String → Running Failure PUnit}

/-- What is left of the check of a node of one type, its keywords aside. -/
theorem checkObjectNode_typed {schemaType : String}
    (checked : Succeeds (checkObjectNode scientific definition checkNode fuel
      schema context) ⟨⟩)
    (plain : schema.get? "$ref" = none)
    (typed : hasType schema schemaType = true) :
    (∃ discriminator variants,
        checkUnionHead schema context = .ok (discriminator, variants))
      ∨ (schemaType = "object" → Succeeds (checkObject scientific definition
          checkNode fuel schema context) ⟨⟩)
        ∧ (schemaType = "array" → ∃ items,
          objectField schema "items" = some items
            ∧ Succeeds (checkNode (some (.object items)) s!"{context}.items")
              ⟨⟩) := by
  unfold checkObjectNode at checked
  obtain ⟨⟨⟩, -, checked⟩ := (succeeds_bind _ _ _).mp checked
  rw [plain] at checked
  simp only [Option.isSome_none, Bool.false_eq_true, if_false] at checked
  obtain ⟨⟨⟩, -, checked⟩ := (succeeds_bind _ _ _).mp checked
  split at checked
  · unfold checkTaggedUnion at checked
    obtain ⟨⟨discriminator, variants⟩, head, -⟩ :=
      (succeeds_bind _ _ _).mp checked
    rw [succeeds_settled] at head
    exact Or.inl ⟨discriminator, variants, head⟩
  · rw [primitiveUnionTypes_of_hasType typed] at checked
    obtain ⟨types, none_combined, checked⟩ := (succeeds_bind _ _ _).mp checked
    rw [succeeds_settled] at none_combined
    obtain rfl := Except.ok.inj none_combined
    rw [strField_eq_some.mpr (hasType_iff.mp typed)] at checked
    obtain ⟨⟨⟩, -, checked⟩ := (succeeds_bind _ _ _).mp checked
    refine Or.inr ⟨?_, ?_⟩
    · rintro rfl
      exact checked
    · rintro rfl
      cases declared : objectField schema "items" with
      | none =>
          simp only [declared] at checked
          cases checked
      | some items =>
          simp only [declared] at checked
          exact ⟨items, rfl, checked⟩

theorem checkProperties_within {properties child : Members} {name : String}
    (checked : Succeeds (checkProperties checkNode schema context) ⟨⟩)
    (declared : objectField schema "properties" = some properties)
    (within : (name, Json.object child) ∈ properties) :
    Succeeds (checkNode (some (.object child)) s!"{context}.properties.{name}")
      ⟨⟩ := by
  unfold checkProperties at checked
  rw [declared] at checked
  obtain ⟨required, -, checked⟩ := (succeeds_bind _ _ _).mp checked
  obtain ⟨⟨⟩, -, checked⟩ := (succeeds_bind _ _ _).mp checked
  split at checked
  · cases checked
  · exact (succeeds_forM _ _).mp checked _ within

/-- The properties of a checked object are checked. -/
theorem checkObject_properties {properties : Members}
    (checked : Succeeds (checkObject scientific definition checkNode fuel schema
      context) ⟨⟩)
    (declared : objectField schema "properties" = some properties) :
    Succeeds (checkProperties checkNode schema context) ⟨⟩ := by
  unfold checkObject at checked
  split at checked
  · exact checked
  · obtain ⟨⟨⟩, -, checked⟩ := (succeeds_bind _ _ _).mp checked
    rw [objectField_eq_some.mp declared] at checked
    simp only [Option.isNone_some, Bool.false_eq_true, if_false] at checked
    obtain ⟨⟨⟩, -, checked⟩ := (succeeds_bind _ _ _).mp checked
    exact checked
  · cases checked

theorem checkObject_within {properties child : Members} {name : String}
    (checked : Succeeds (checkObject scientific definition checkNode fuel schema
      context) ⟨⟩)
    (declared : objectField schema "properties" = some properties)
    (within : (name, Json.object child) ∈ properties) :
    Succeeds (checkNode (some (.object child)) s!"{context}.properties.{name}")
      ⟨⟩ :=
  checkProperties_within (checkObject_properties checked declared) declared within

end Within

theorem hasType_of_addressableMembers {properties : Members}
    (closed : addressableMembers schema = some properties) :
    hasType schema "object" = true
      ∧ objectField schema "properties" = some properties := by
  unfold addressableMembers at closed
  split at closed
  · cases closed
  · next other =>
    rw [Bool.or_eq_true, not_or] at other
    exact ⟨by simpa using other.1, closed⟩

theorem hasType_of_arrayItems {items : Members}
    (array : arrayItems schema = some items) :
    hasType schema "array" = true
      ∧ objectField schema "items" = some items := by
  unfold arrayItems at array
  split at array
  · next typed => exact ⟨typed, array⟩
  · cases array

/-- The items of a checked array are checked at a place of their own. -/
theorem CheckedAt.items {items : Members} {context : String}
    (checked : CheckedAt scientific definition context schema)
    (plain : schema.get? "$ref" = none)
    (array : arrayItems schema = some items) :
    CheckedAt scientific definition s!"{context}.items" items := by
  obtain ⟨fuel, succeeds⟩ := checked
  obtain ⟨typed, declared⟩ := hasType_of_arrayItems array
  cases fuel with
  | zero => cases succeeds
  | succ fuel =>
      rcases checkObjectNode_typed succeeds plain typed
        with ⟨_, _, head⟩ | ⟨-, rest⟩
      · have object := hasType_iff.mp (checkUnionHead_ok head).1
        rw [hasType_iff.mp typed] at object
        exact absurd object (by simp)
      · obtain ⟨others, also, node⟩ := rest rfl
        obtain rfl := Option.some.inj (declared.symm.trans also)
        exact ⟨fuel, node⟩

/-- The items of a checked array are a checked node. -/
theorem CheckedNode.items {items : Members}
    (checked : CheckedNode scientific definition schema)
    (plain : schema.get? "$ref" = none)
    (array : arrayItems schema = some items) :
    CheckedNode scientific definition items := by
  obtain ⟨context, placed⟩ := checked.placed
  exact (placed.items plain array).node

/-- The members of a checked closed object are checked nodes. -/
theorem CheckedNode.member {properties child : Members} {name : String}
    (checked : CheckedNode scientific definition schema)
    (plain : schema.get? "$ref" = none)
    (closed : addressableMembers schema = some properties)
    (within : (name, Json.object child) ∈ properties) :
    CheckedNode scientific definition child := by
  obtain ⟨fuel, context, succeeds⟩ := checked
  obtain ⟨typed, declared⟩ := hasType_of_addressableMembers closed
  cases fuel with
  | zero => cases succeeds
  | succ fuel =>
      rcases checkObjectNode_typed succeeds plain typed
        with ⟨_, _, head⟩ | ⟨rest, -⟩
      · have none := (checkUnionHead_ok head).2.1
        rw [objectField_eq_some.mp declared] at none
        cases none
      · exact ⟨fuel, _, checkObject_within (rest rfl) declared within⟩

/-! ## Where collecting paths ends -/

theorem string_of_localReferenceName {reference : Option Json} {name : String}
    (named : localReferenceName reference = some name) :
    ∃ text, reference = some (.string text) := by
  cases reference with
  | none => cases named
  | some value =>
      cases value with
      | string text => exact ⟨text, rfl⟩
      | _ => cases named

theorem LeadsTo.unique {target other : Members}
    (leads : LeadsTo definition schema target)
    (also : LeadsTo definition schema other) : target = other := by
  induction leads with
  | @here schema ends =>
      cases also with
      | here => rfl
      | along reference entry rest =>
          obtain ⟨text, held⟩ := string_of_localReferenceName reference
          exact absurd held (ends text)
  | @along schema next target name reference entry rest inductionHypothesis =>
      cases also with
      | here ends =>
          obtain ⟨text, held⟩ := string_of_localReferenceName reference
          exact absurd held (ends text)
      | along other_reference other_entry other_rest =>
          obtain rfl := Option.some.inj (reference.symm.trans other_reference)
          obtain rfl := Option.some.inj (entry.symm.trans other_entry)
          exact inductionHypothesis other_rest

/--
Collecting the paths of a checked node that ends succeeds, and no descent from
the node is endless.
-/
theorem collect_ended
    (entries : EntriesChecked scientific definition) {fuel : Nat}
    {path : String} (checked : CheckedNode scientific definition schema)
    (ended : Ended
      (collectCollaborationSchemaPaths definition fuel schema path)) :
    DescentsEnd definition schema ∧ ∃ paths, Succeeds
      (collectCollaborationSchemaPaths definition fuel schema path) paths := by
  induction fuel generalizing schema path with
  | zero => exact absurd ended not_ended_pending
  | succ fuel inductionHypothesis =>
      rw [collectCollaborationSchemaPaths] at ended ⊢
      obtain ⟨target, followed, target_checked, plain⟩ := dereference_succeeds
        entries checked ((ended_bind _ _).mp ended).1
      have leads := leadsTo_of_dereference followed
      rw [bind_of_succeeds followed] at ended ⊢
      cases array : arrayItems target with
      | some items =>
          simp only [array] at ended ⊢
          obtain ⟨item, item_followed, item_checked, -⟩ := dereference_succeeds
            entries (target_checked.items plain array)
            ((ended_bind _ _).mp ended).1
          have item_leads := leadsTo_of_dereference item_followed
          rw [bind_of_succeeds item_followed] at ended ⊢
          have onward : ∀ inner, Descends definition schema inner →
              inner = item ∧ hasType item "object" = true := by
            intro inner descends
            cases descends with
            | items other_leads other_array other_item object =>
                obtain rfl := leads.unique other_leads
                obtain rfl := Option.some.inj (array.symm.trans other_array)
                obtain rfl := item_leads.unique other_item
                exact ⟨rfl, object⟩
            | member other_leads none =>
                obtain rfl := leads.unique other_leads
                rw [array] at none
                cases none
          split at ended
          · next object =>
            rw [if_pos object]
            obtain ⟨ends, inner, collected⟩ := inductionHypothesis item_checked
              ((ended_bind _ _).mp ended).1
            refine ⟨Acc.intro schema fun inner descends => ?_, _,
              (succeeds_bind _ _ _).mpr ⟨inner, collected, rfl⟩⟩
            obtain ⟨rfl, -⟩ := onward inner descends
            exact ends
          · next other =>
            rw [if_neg other]
            refine ⟨Acc.intro schema fun inner descends => ?_, [path], rfl⟩
            exact absurd (onward inner descends).2 other
      | none =>
          simp only [array] at ended ⊢
          have onward : ∀ inner, Descends definition schema inner →
              ∃ properties name, addressableMembers target = some properties
                ∧ (name, Json.object inner) ∈ properties := by
            intro inner descends
            cases descends with
            | items other_leads other_array =>
                obtain rfl := leads.unique other_leads
                rw [array] at other_array
                cases other_array
            | member other_leads _ closed within =>
                obtain rfl := leads.unique other_leads
                exact ⟨_, _, closed, within⟩
          cases closed : addressableMembers target with
          | none =>
              refine ⟨Acc.intro schema fun inner descends => ?_, [path], rfl⟩
              obtain ⟨_, _, some_members, -⟩ := onward inner descends
              rw [closed] at some_members
              cases some_members
          | some properties =>
              simp only [closed] at ended ⊢
              have succeed : ∀ member ∈ properties, Ended (memberPaths
                    (collectCollaborationSchemaPaths definition fuel) path
                      member) →
                  ∃ paths, Succeeds (memberPaths
                    (collectCollaborationSchemaPaths definition fuel) path
                      member) paths := by
                rintro ⟨name, child⟩ within child_ended
                cases child with
                | object members =>
                    exact (inductionHypothesis
                      (target_checked.member plain closed within)
                      child_ended).2
                | _ => exact ⟨[], rfl⟩
              obtain ⟨every, values, gathered⟩ := succeeds_of_ended_mapM succeed
                ((ended_bind _ _).mp ended).1
              refine ⟨Acc.intro schema fun inner descends => ?_, _,
                (succeeds_bind _ _ _).mpr ⟨values, gathered, rfl⟩⟩
              obtain ⟨others, name, same, within⟩ := onward inner descends
              obtain rfl := Option.some.inj (closed.symm.trans same)
              exact (inductionHypothesis
                (target_checked.member plain closed within)
                (every _ within)).1

end Clerkenwell.Codegen
