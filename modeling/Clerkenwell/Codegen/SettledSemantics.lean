import Clerkenwell.Codegen.SettledEntities
import Mathlib.Order.WellFounded

/-!
# The semantic checks settle

Every check refuses where it fails but two: collecting the paths of a
collaborative entity may be endless, and a field with item containers may name
no identity.  The checks accept or refuse a definition just where neither
happens at an entity they come to.
-/

namespace Clerkenwell.Codegen

open Clerkenwell.Foundation Clerkenwell.Doc Running

/-! ## Contracts -/

section Contracts

variable {scientific : Scientific} {definition : Sections}
  {schema snapshotSchema patchSchema : Members} {property context : String}
  {omitFields : List String}

theorem refuses_contractProperty :
    Refuses (contractProperty schema property context) := by
  unfold contractProperty
  extract_lets found
  clear_value found
  cases found with
  | some property => exact refuses_ok property
  | none => exact refuses_refuse _

theorem refuses_checkSchemaProperty :
    Refuses (checkSchemaProperty definition schema property context) := by
  have declared : ∀ resolved : Members, Refuses
      (if hasType resolved "json" then pure ()
        else discard (contractProperty resolved property context)) :=
    fun resolved => refuses_ite (fun _ => refuses_pure _)
      fun _ => refuses_discard refuses_contractProperty
  unfold checkSchemaProperty
  dsimp only
  split
  · exact declared schema
  · exact refuses_resolveRef.bind fun resolved _ => declared resolved

theorem refuses_checkArrayItemProperty :
    Refuses (checkArrayItemProperty definition schema property context) := by
  unfold checkArrayItemProperty
  dsimp only
  split
  · exact refuses_checkSchemaProperty
  · exact refuses_refuse _

theorem refuses_checkUpdateFields {updateField updatesField : String} :
    Refuses (checkUpdateFields scientific definition snapshotSchema patchSchema
      updateField updatesField context) := by
  refine refuses_contractProperty.bind fun target _ => ?_
  refine refuses_contractProperty.bind fun changes _ => ?_
  split
  · split
    · exact refuses_forM _ fun _ _ => refuses_ite (fun _ => refuses_refuse _)
        fun _ => refuses_pure _
    · exact refuses_refuse _
  · exact refuses_refuse _

theorem refuses_checkUpdate {updateField updatesField : Option String} :
    Refuses (checkUpdate scientific definition snapshotSchema patchSchema
      context updateField updatesField) := by
  unfold checkUpdate
  split
  · exact refuses_checkUpdateFields
  · exact refuses_ok _

theorem refuses_checkPatchMatchesSnapshot :
    Refuses (checkPatchMatchesSnapshot snapshotSchema patchSchema context
      omitFields) :=
  refuses_ite (fun _ => refuses_refuse _) fun _ => refuses_ok _

theorem refuses_checkSnapshotMode {mode : SnapshotMode} :
    Refuses (checkSnapshotMode snapshotSchema patchSchema context omitFields
      mode) := by
  cases mode with
  | field name => exact refuses_discard refuses_contractProperty
  | patch =>
      refine Refuses.bind (refuses_forM _ fun _ _ => ?_)
        fun _ _ => refuses_checkPatchMatchesSnapshot
      exact refuses_ite (fun _ => refuses_refuse _)
        fun _ => refuses_discard refuses_contractProperty

theorem refuses_checkPlan {plan : MaterializationPlan} :
    Refuses (checkPlan scientific definition snapshotSchema patchSchema context
      plan) := by
  cases plan with
  | keyedCollection =>
      refine refuses_contractProperty.bind fun _ _ => ?_
      refine refuses_contractProperty.bind fun _ _ => ?_
      refine refuses_contractProperty.bind fun _ _ => ?_
      refine (refuses_discard refuses_contractProperty).bind fun _ _ => ?_
      refine refuses_checkArrayItemProperty.bind fun _ _ => ?_
      refine refuses_checkArrayItemProperty.bind fun _ _ => ?_
      exact refuses_checkSchemaProperty
  | sequencedText =>
      refine refuses_contractProperty.bind fun _ _ => ?_
      refine refuses_checkArrayItemProperty.bind fun _ _ => ?_
      refine (refuses_discard refuses_contractProperty).bind fun _ _ => ?_
      exact refuses_discard refuses_contractProperty
  | replaceOrRemove snapshotMode omitted removeMode =>
      refine refuses_ite (fun _ => refuses_refuse _) fun _ => ?_
      refine refuses_checkUpdate.bind fun _ _ => ?_
      refine refuses_checkSnapshotMode.bind fun _ _ => ?_
      cases removeMode with
      | nullField => exact refuses_discard refuses_contractProperty
      | nullSnapshot => exact refuses_pure _
  | replace => exact refuses_checkSnapshotMode
  | reset => exact refuses_checkPatchMatchesSnapshot

theorem refuses_checkMaterialization {projection : Projection} :
    Refuses (checkMaterialization scientific definition projection) := by
  refine refuses_resolveRef.bind fun snapshotSchema _ => ?_
  refine refuses_schemaRefName.bind fun patchName named => ?_
  obtain ⟨-, target, found⟩ := schemaRefName_ok named
  refine (refuses_expect found).bind fun patchSchema _ => ?_
  refine refuses_readStringArray.bind fun kinds _ => ?_
  exact refuses_ite (fun _ => refuses_refuse _) fun _ => refuses_checkPlan

end Contracts

/-! ## Entries -/

section Entries

variable {scientific : Scientific} {definition : Declarations}
  {entity : EntityDeclaration} {schema : Members}

theorem refuses_checkEntitySchemaProperty {property context : String} :
    Refuses (checkEntitySchemaProperty schema property context) :=
  refuses_ite (fun _ => refuses_ok _) fun _ => refuses_refuse _

theorem refuses_checkRevision : Refuses (checkRevision entity schema) := by
  unfold checkRevision
  split
  · exact refuses_checkEntitySchemaProperty
  · exact refuses_refuse _
  · exact refuses_ok _

theorem refuses_checkEntity : Refuses (checkEntity definition entity) := by
  refine refuses_schemaRefName.bind fun schemaName named => ?_
  obtain ⟨-, target, found⟩ := schemaRefName_ok named
  refine (refuses_expect found).bind fun entitySchema _ => ?_
  refine refuses_checkEntitySchemaProperty.bind fun _ _ => ?_
  refine refuses_checkRevision.bind fun _ _ => ?_
  refine refuses_ite (fun _ => refuses_refuse _) fun _ => ?_
  exact refuses_forM _ fun _ _ => refuses_ite (fun _ => refuses_pure _)
    fun _ => refuses_refuse _

theorem refuses_entitySchemaOf :
    Refuses (entitySchemaOf definition entity) := by
  refine refuses_schemaRefName.bind fun schemaName named => ?_
  obtain ⟨-, target, found⟩ := schemaRefName_ok named
  refine (refuses_expect found).bind fun entitySchema _ => ?_
  exact refuses_ite (fun _ => refuses_refuse _) fun _ => refuses_pure _

variable {collaboration : CollaborationDeclaration}

theorem refuses_collaborativeEntity :
    Refuses (collaborativeEntity definition collaboration) := by
  unfold collaborativeEntity
  dsimp only
  split
  · exact refuses_refuse _
  · exact refuses_ite (fun _ => refuses_refuse _) fun _ => refuses_ok _

theorem refuses_checkAuthoringState :
    Refuses (checkAuthoringState definition collaboration) := by
  refine refuses_ite (fun _ => refuses_refuse _) fun _ => ?_
  exact refuses_ite (fun _ => refuses_refuse _) fun _ => refuses_ok _

theorem refuses_checkCollaborationDeclared :
    Refuses (checkCollaborationDeclared definition entity) :=
  refuses_ite (fun _ => refuses_refuse _) fun _ => refuses_ok _

theorem refuses_checkProjection {projection : ProjectionDeclaration} :
    Refuses (checkProjection definition scientific projection) := by
  refine (refuses_discard refuses_schemaRefName).bind fun _ _ => ?_
  refine (refuses_discard refuses_schemaRefName).bind fun _ _ => ?_
  refine (refuses_discard refuses_schemaRefName).bind fun _ _ => ?_
  refine Refuses.bind (refuses_forM _ fun _ _ => ?_)
    fun _ _ => refuses_checkMaterialization
  exact refuses_ite (fun _ => refuses_pure _) fun _ => refuses_refuse _

theorem refuses_checkOperation {section_ : String}
    {operation : OperationDeclaration} :
    Refuses (checkOperation definition section_ operation) := by
  refine (refuses_discard refuses_schemaRefName).bind fun _ _ => ?_
  refine (refuses_discard refuses_schemaRefName).bind fun _ _ => ?_
  refine refuses_forM _ fun _ _ => refuses_ite (fun _ => refuses_refuse _)
    fun _ => ?_
  exact refuses_ite (fun _ => refuses_refuse _) fun _ => refuses_pure _

theorem refuses_registerNames (outputs earlier : List OutputName) :
    Refuses (registerNames earlier outputs) := by
  induction outputs generalizing earlier with
  | nil => exact refuses_ok _
  | cons output rest inductionHypothesis =>
      unfold registerNames
      split
      · exact refuses_refuse _
      · exact inductionHypothesis _

theorem refuses_checkPublicNames (names earlier : List String) :
    Refuses (checkPublicNames earlier names) := by
  induction names generalizing earlier with
  | nil => exact refuses_ok _
  | cons name rest inductionHypothesis =>
      unfold checkPublicNames
      exact refuses_ite (fun _ => refuses_refuse _)
        fun _ => inductionHypothesis _

theorem refuses_checkPublicOperation {section_ name : String}
    {params : Members} :
    Refuses (checkPublicOperation definition section_ name params) := by
  refine Refuses.bind (refuses_ite (fun _ => refuses_refuse _)
    fun _ => refuses_ok _) fun _ _ => ?_
  refine refuses_resolveRef.bind fun target _ => ?_
  exact refuses_ite (fun _ => refuses_ok _) fun _ => refuses_refuse _

theorem refuses_checkAfterCollaboration :
    Refuses (checkAfterCollaboration definition scientific) := by
  refine Refuses.bind (refuses_forM _ fun _ _ =>
    refuses_checkCollaborationDeclared) fun _ _ => ?_
  refine Refuses.bind (refuses_forM _ fun _ _ =>
    refuses_checkProjection) fun _ _ => ?_
  refine Refuses.bind (refuses_forM _ fun _ _ =>
    refuses_checkOperation) fun _ _ => ?_
  refine Refuses.bind (refuses_forM _ fun _ _ =>
    refuses_checkOperation) fun _ _ => ?_
  refine (refuses_registerNames _ _).bind fun _ _ => ?_
  refine (refuses_checkPublicNames _ _).bind fun _ _ => ?_
  exact refuses_forM _ fun _ _ => refuses_checkPublicOperation

theorem checkBeforeCollaboration_settles :
    Settles IsRefusal fun fuel =>
      checkBeforeCollaboration definition scientific fuel := by
  unfold checkBeforeCollaboration
  split
  · exact settles_refused _
  · refine checkReferenceChains_settles.bind fun _ comes => ?_
    have followable := followable_of_checked comes
    refine (checkDefinitions_settles followable).bind fun _ _ => ?_
    exact settles_checked (refuses_forM _ fun _ _ => refuses_checkEntity)

end Entries

/-! ## Collaborative entities -/

section Entity

variable {scientific : Scientific} {definition : Declarations}
  {collaboration : CollaborationDeclaration} {entity : EntityDeclaration}
  {schemaName : String} {schema : Members}

/-- What refusals of a collaborative entity say it is. -/
def CollaborationDeclaration.context (collaboration : CollaborationDeclaration) :
    String :=
  s!"collaboration.entities.{collaboration.name}"

/-- Whether a check comes to collecting the paths of an entity's schema. -/
structure ReachesCollection (definition : Declarations)
    (collaboration : CollaborationDeclaration) (entity : EntityDeclaration)
    (schemaName : String) (schema : Members) : Prop where
  collaborative : collaborativeEntity definition collaboration = .ok entity
  authoring : checkAuthoringState definition collaboration = .ok ⟨⟩
  closed : entitySchemaOf definition entity = .ok (schemaName, schema)

/-- Whether a check comes to the containers of an entity's fields. -/
structure ReachesContainers (definition : Declarations)
    (collaboration : CollaborationDeclaration) (schemaName : String)
    (schema : Members) : Prop where
  sequences : Comes (fun fuel => forM (keyedSequences collaboration.fields)
    (checkSequenceItems definition fuel collaboration.context schema)) ⟨⟩
  fields : Comes (fun fuel => forM collaboration.fields
    (checkField definition fuel collaboration.context schemaName schema)) ⟨⟩

/--
Whether no field of an entity whose containers are checked has item containers
and names no identity.
-/
def ContainersNamed (collaboration : CollaborationDeclaration) : Prop :=
  ∀ before field after, collaboration.fields = before ++ field :: after →
    (∀ earlier ∈ before, checkFieldContainers collaboration.context
      (keyedSequences collaboration.fields) earlier = .ok ⟨⟩) →
    ItemContainersNamed collaboration.context
      (keyedSequences collaboration.fields) field

/--
Whether the check of a collaborative entity is bound to end, and by a refusal
where it fails.
-/
def EntityBound (definition : Declarations)
    (collaboration : CollaborationDeclaration) : Prop :=
  ∀ entity schemaName schema,
    ReachesCollection definition collaboration entity schemaName schema →
      DescentsEnd definition.document schema
        ∧ (ReachesContainers definition collaboration schemaName schema →
          ContainersNamed collaboration)

variable (followable : Followable definition.document)

include followable

theorem checkSequences_settles (fields : List FieldDeclaration)
    (context : String) (schema : Members) :
    Settles IsRefusal fun fuel => forM (keyedSequences fields)
      (checkSequenceItems definition fuel context schema) := by
  have each : ∀ field, Settles IsRefusal fun fuel =>
      checkSequenceItems definition fuel context schema field := fun _ =>
    checkSequenceItems_settles followable
  exact settles_forM _ fun field _ => each field

theorem checkEachField_settles (fields : List FieldDeclaration)
    (context schemaName : String) (schema : Members) :
    Settles IsRefusal fun fuel => forM fields
      (checkField definition fuel context schemaName schema) := by
  have each : ∀ field, Settles IsRefusal fun fuel =>
      checkField definition fuel context schemaName schema field := fun _ =>
    checkField_settles followable
  exact settles_forM _ fun field _ => each field

theorem checkFields_steady (paths : List String) :
    Steady fun fuel =>
      checkFields definition fuel collaboration.context schemaName schema
        collaboration.fields paths :=
  (checkSequences_settles followable _ _ _).steady.bind fun _ _ =>
    (checkEachField_settles followable _ _ _ _).steady.bind fun _ _ =>
      steady_const _

omit followable in
/-- The sequences of fields that are checked name the identities of their items. -/
theorem namesIdentity_of_reached
    (reached : ReachesContainers definition collaboration schemaName schema) :
    ∀ sequence ∈ keyedSequences collaboration.fields,
      NamesIdentity sequence := by
  intro sequence within
  obtain ⟨among, keyed⟩ := List.mem_filter.mp within
  obtain ⟨fuel, checked⟩ := reached.fields
  obtain ⟨context, storage⟩ :=
    checkField_storage ((succeeds_forM _ _).mp checked sequence among)
  exact namesIdentity_of_checked storage (by simpa using keyed)

omit followable in
theorem refuses_checkContainers_iff
    (reached : ReachesContainers definition collaboration schemaName schema) :
    Refuses (checkKeyedSequenceContainers collaboration.context
        collaboration.fields)
      ↔ ContainersNamed collaboration := by
  have named := namesIdentity_of_reached reached
  unfold checkKeyedSequenceContainers ContainersNamed
  rw [refuses_forM_iff]
  simp only [refuses_checkFieldContainers_iff named]

theorem checkFields_settles_iff (paths : List String) :
    Settles IsRefusal (fun fuel =>
        checkFields definition fuel collaboration.context schemaName schema
          collaboration.fields paths)
      ↔ (ReachesContainers definition collaboration schemaName schema →
        ContainersNamed collaboration) := by
  have sequences := checkSequences_settles followable collaboration.fields
    collaboration.context schema
  have fields := checkEachField_settles followable collaboration.fields
    collaboration.context schemaName schema
  have containers : Settles IsRefusal (fun _ =>
        settled (checkKeyedSequenceContainers collaboration.context
            collaboration.fields) >>= fun _ =>
          settled (checkCoverage collaboration.context collaboration.fields
            paths))
      ↔ Refuses (checkKeyedSequenceContainers collaboration.context
        collaboration.fields) := by
    rw [settles_bind_iff (steady_const _) fun _ _ => steady_const _,
      settles_checked_iff, and_iff_left]
    exact fun _ _ => settles_checked refuses_checkCoverage
  unfold checkFields
  rw [settles_bind_iff sequences.steady fun _ _ =>
    fields.steady.bind fun _ _ => steady_const _]
  simp only [settles_bind_iff fields.steady fun _ _ => steady_const _,
    containers, sequences, fields, true_and]
  constructor
  · intro refuses reached
    exact (refuses_checkContainers_iff reached).mp
      (refuses _ reached.sequences _ reached.fields)
  · intro named ⟨⟩ sequences_checked ⟨⟩ fields_checked
    have reached : ReachesContainers definition collaboration schemaName
        schema := ⟨sequences_checked, fields_checked⟩
    exact (refuses_checkContainers_iff reached).mpr (named reached)

theorem checkCollaboration_steady :
    Steady fun fuel => checkCollaboration definition fuel collaboration := by
  refine (steady_const _).bind fun entity _ => ?_
  refine (steady_const _).bind fun _ _ => (steady_const _).bind fun named _ => ?_
  refine (collect_steady followable named.2 "").bind fun paths _ => ?_
  exact checkFields_steady followable paths

omit followable in
/-- The schema of a collaborative entity is a checked node. -/
theorem checkedNode_of_entitySchemaOf
    (entries : EntriesChecked scientific definition.document)
    (closed : entitySchemaOf definition entity = .ok (schemaName, schema)) :
    CheckedNode scientific definition.document schema := by
  obtain ⟨name, -, closed⟩ := except_bind_ok closed
  obtain ⟨target, found, closed⟩ := except_bind_ok closed
  split at closed
  · cases closed
  · obtain ⟨-, rfl⟩ := Prod.mk.inj (Except.ok.inj closed)
    exact entries name target (expect_eq_ok found)

/-- The check of a collaborative entity settles just where it is bound to end. -/
theorem checkCollaboration_settles_iff
    (entries : EntriesChecked scientific definition.document) :
    Settles IsRefusal (fun fuel =>
        checkCollaboration definition fuel collaboration)
      ↔ EntityBound definition collaboration := by
  unfold checkCollaboration checkCollaborationEntity
  rw [settles_checked_bind_iff refuses_collaborativeEntity]
  simp only [settles_checked_bind_iff refuses_checkAuthoringState,
    settles_checked_bind_iff refuses_entitySchemaOf]
  constructor
  · intro settles entity schemaName schema reached
    have node := checkedNode_of_entitySchemaOf entries reached.closed
    have collects := settles entity reached.collaborative ⟨⟩ reached.authoring
      (schemaName, schema) reached.closed
    have steady : ∀ paths, Steady fun fuel => checkFields definition fuel
        collaboration.context schemaName schema collaboration.fields paths :=
      checkFields_steady followable
    obtain ⟨⟨-, fuel, decides⟩, fields⟩ := (settles_bind_iff
      (collect_steady followable schema "") fun paths _ => steady paths).mp
        collects
    obtain ⟨ends, paths, collected⟩ := collect_ended entries node decides.ended
    refine ⟨ends, ?_⟩
    exact (checkFields_settles_iff followable paths).mp
      (fields paths ⟨fuel, collected⟩)
  · intro bound entity collaborative _ authoring named closed
    obtain ⟨ends, containers⟩ := bound entity named.1 named.2
      ⟨collaborative, authoring, closed⟩
    refine (collect_settles followable ends "").bind fun paths _ => ?_
    exact (checkFields_settles_iff followable paths).mpr containers

end Entity

/-! ## The whole -/

section Whole

variable {scientific : Scientific} {definition : Declarations}

/-- What is checked before any collaboration entry. -/
theorem checked_before
    (comes : Comes (checkBeforeCollaboration definition scientific) ⟨⟩) :
    Followable definition.document
      ∧ EntriesChecked scientific definition.document := by
  obtain ⟨fuel, succeeds⟩ := comes
  unfold checkBeforeCollaboration at succeeds
  split at succeeds
  · cases succeeds
  · obtain ⟨⟨⟩, chains, succeeds⟩ := (succeeds_bind _ _ _).mp succeeds
    obtain ⟨⟨⟩, checked, -⟩ := (succeeds_bind _ _ _).mp succeeds
    exact ⟨followable_of_checked ⟨fuel, chains⟩,
      entriesChecked_of_checked checked⟩

theorem checkSemantics_steady :
    Steady fun fuel => checkSemantics definition scientific fuel := by
  refine checkBeforeCollaboration_settles.steady.bind fun _ comes => ?_
  obtain ⟨followable, -⟩ := checked_before comes
  refine Steady.bind ?_ fun _ _ => steady_const _
  exact steady_forM _ fun collaboration _ => checkCollaboration_steady followable

/-- The checks settle just where every entity they come to is bound to end. -/
theorem checkSemantics_settles_iff :
    Settles IsRefusal (fun fuel => checkSemantics definition scientific fuel)
      ↔ (Comes (checkBeforeCollaboration definition scientific) ⟨⟩ →
        ∀ before collaboration after,
          definition.collaboration = before ++ collaboration :: after →
          (∀ earlier ∈ before, Comes (fun fuel =>
            checkCollaboration definition fuel earlier) ⟨⟩) →
          EntityBound definition collaboration) := by
  have steady : Comes (checkBeforeCollaboration definition scientific) ⟨⟩ →
      ∀ collaboration, Steady fun fuel =>
        checkCollaboration definition fuel collaboration :=
    fun comes _ => checkCollaboration_steady (checked_before comes).1
  have each : Comes (checkBeforeCollaboration definition scientific) ⟨⟩ →
      ∀ collaboration, Settles IsRefusal (fun fuel =>
          checkCollaboration definition fuel collaboration)
        ↔ EntityBound definition collaboration := fun comes _ =>
    checkCollaboration_settles_iff (checked_before comes).1
      (checked_before comes).2
  have loop : ∀ comes : Comes
        (checkBeforeCollaboration definition scientific) ⟨⟩,
      Steady fun fuel => forM definition.collaboration
        (checkCollaboration definition fuel) := fun comes =>
    steady_forM _ fun collaboration _ => steady comes collaboration
  unfold checkSemantics
  rw [settles_bind_iff checkBeforeCollaboration_settles.steady
    fun _ comes => (loop comes).bind fun _ _ => steady_const _]
  constructor
  · rintro ⟨-, rest⟩ comes before collaboration after split earlier
    have collaborations := (settles_bind_iff (loop comes)
      fun _ _ => steady_const _).mp (rest ⟨⟩ comes)
    exact (each comes collaboration).mp ((settles_forM_iff fun item _ =>
      steady comes item).mp collaborations.1 before collaboration after split
        earlier)
  · intro bound
    refine ⟨checkBeforeCollaboration_settles, fun ⟨⟩ comes => ?_⟩
    refine Settles.bind ?_ fun _ _ =>
      settles_checked refuses_checkAfterCollaboration
    refine settles_forM_split _ fun before collaboration after split earlier => ?_
    exact (each comes collaboration).mpr
      (bound comes before collaboration after split earlier)

end Whole

/--
The semantic checks of a definition accept or refuse it just where every
collaborative entity they come to is bound to end: no descent through its
schema is endless, and no field of it has item containers and no identity.
-/
theorem checkSemantics_decides_iff (definition : Declarations)
    (scientific : Scientific) :
    (∃ fuel, Decides IsRefusal (checkSemantics definition scientific fuel))
      ↔ (Comes (checkBeforeCollaboration definition scientific) ⟨⟩ →
        ∀ before collaboration after,
          definition.collaboration = before ++ collaboration :: after →
          (∀ earlier ∈ before, Comes (fun fuel =>
            checkCollaboration definition fuel earlier) ⟨⟩) →
          EntityBound definition collaboration) := by
  rw [← checkSemantics_settles_iff]
  exact ⟨fun decides => ⟨checkSemantics_steady, decides⟩,
    fun settles => settles.decides⟩

/-! ## An entity that reaches itself -/

section SelfNesting

/-- A reference to an entry. -/
def referenceTo (name : String) : Members :=
  [("$ref", .string s!"#/$defs/{name}")]

/-- A closed object of some properties, all required. -/
def closedSchema (properties : Members) : Members :=
  [("type", .string "object"), ("properties", .object properties),
    ("required", .array (properties.map fun property => .string property.1)),
    ("additionalProperties", .bool false)]

/-- A folder, whose parent is a folder. -/
def folderSchema : Members :=
  [("type", .string "object"),
    ("properties", .object
      [("id", .object [("type", .string "string")]),
        ("parent", .object (referenceTo "Folder"))]),
    ("required", .array [.string "id"]), ("additionalProperties", .bool false)]

/-- A definition of one collaborative entity that nests itself. -/
def selfNesting : Declarations where
  document :=
    { namespaceName := "folders"
      entities := []
      projections := []
      mutations := []
      commands := []
      collaboration := []
      defs :=
        [("Folder", .object folderSchema),
          ("FolderParams", .object (closedSchema
            [("id", .object [("type", .string "string")])]))] }
  entities :=
    [{ name := "folder"
       id := "id"
       schema := referenceTo "Folder"
       revision := .replica none
       authoringKind := .collaborative
       planningMutations := [] }]
  projections :=
    [{ name := "folder.byId"
       params := referenceTo "FolderParams"
       snapshot := referenceTo "Folder"
       patch := referenceTo "Folder"
       materialization := .reset
       dependsOn := ["folder"] }]
  mutations :=
    [{ name := "folder.import"
       params := referenceTo "FolderParams"
       result := referenceTo "FolderParams"
       touches := ["folder"] }]
  commands := []
  collaboration :=
    [{ name := "folder"
       authoringProjection := "folder.byId"
       importMutation := "folder.import"
       fields :=
        [{ path := "id"
           storageKind := .derivedIdentity
           container := none
           containerTemplate := none
           key := none
           identityPath := none
           identityVariable := none
           orderContainer := none
           metadataContainer := none
           metadataContainerTemplate := none
           metadataKey := none
           codec := .identity
           required := true
           requiredInParent := true
           conflict := .immutable
           writers := []
           itemContainerTemplate := none
           valueSchema := none }] }]

/-- The checks of the definition never come to an end. -/
theorem self_nesting_check_never_ends :
    ¬∃ scientific fuel,
      Decides IsRefusal (checkSemantics selfNesting scientific fuel) := by
  rintro ⟨scientific, fuel, decides⟩
  have settles : Settles IsRefusal fun fuel =>
      checkSemantics selfNesting scientific fuel :=
    ⟨checkSemantics_steady, fuel, decides⟩
  have before : Comes (checkBeforeCollaboration selfNesting scientific) ⟨⟩ :=
    ⟨8, rfl⟩
  obtain ⟨ends, -⟩ := checkSemantics_settles_iff.mp settles before [] _ [] rfl
    (by simp) _ _ folderSchema ⟨rfl, rfl, rfl⟩
  have leads : LeadsTo selfNesting.document (referenceTo "Folder")
      folderSchema :=
    @LeadsTo.along _ _ folderSchema _ "Folder" (by decide) rfl
      (.here fun reference held => by cases held)
  have again : Descends selfNesting.document (referenceTo "Folder")
      (referenceTo "Folder") :=
    @Descends.member _ _ _ _ _ "parent" leads rfl rfl (by simp)
  have first : Descends selfNesting.document folderSchema
      (referenceTo "Folder") :=
    @Descends.member _ _ _ _ _ "parent"
      (.here fun reference held => by cases held) rfl rfl (by simp)
  refine not_acc_iff_exists_descending_chain.mpr ?_ (ends.inv first)
  exact ⟨fun _ => referenceTo "Folder", rfl, fun _ => again⟩

end SelfNesting

end Clerkenwell.Codegen
