import Clerkenwell.Codegen.Descents
import Clerkenwell.Codegen.Semantics

/-!
# Checks of a collaborative entity settle

What is checked of an entity's fields settles, and is a refusal where it fails,
but for one case: a field may have item containers and name no identity.
-/

namespace Clerkenwell.Codegen

open Clerkenwell.Foundation Running

/-! ## Paths -/

section Paths

variable {definition : Sections} (followable : Followable definition)

include followable

theorem followSegment_settles (segment : String) (followed : Followed) :
    Settles IsRefusal fun fuel =>
      followSegment definition fuel segment followed := by
  unfold followSegment
  refine (dereference_settles followable followed.schema).bind fun schema _ => ?_
  split
  · split
    · exact settles_pure _
    · refine (dereferenceFrom_settles followable none _).bind fun _ _ => ?_
      exact settles_pure _
  · split
    · exact settles_pure _
    · refine (settles_checked refuses_readStringArray).bind fun _ _ => ?_
      refine (dereferenceFrom_settles followable none _).bind fun _ _ => ?_
      exact settles_pure _

theorem followSegments_settles (segments : List String) (followed : Followed) :
    Settles IsRefusal fun fuel =>
      followSegments definition fuel segments followed := by
  induction segments generalizing followed with
  | nil => exact settles_pure _
  | cons segment rest inductionHypothesis =>
      simp only [followSegments]
      refine (followSegment_settles followable segment followed).bind
        fun next _ => ?_
      split
      · exact settles_pure _
      · exact inductionHypothesis _

theorem collaborationSchemaAt_settles (root : Members) (path : String) :
    Settles IsRefusal fun fuel =>
      collaborationSchemaAt definition fuel root path :=
  (dereferenceFrom_settles followable none root).bind fun _ _ =>
    followSegments_settles followable _ _

end Paths

/-! ## Storage -/

section Storage

variable {context : String} {field : FieldDeclaration}

theorem refuses_requireSetting {key : String} :
    Refuses (requireSetting context field key) :=
  refuses_ite (fun _ => refuses_ok _) fun _ => refuses_refuse _

theorem refuses_requireContainer : Refuses (requireContainer context field) :=
  refuses_ite (fun _ => refuses_refuse _) fun _ => refuses_ok _

theorem refuses_checkCollaborationStorage :
    Refuses (checkCollaborationStorage context field) := by
  unfold checkCollaborationStorage
  split
  · exact refuses_requireContainer.bind fun _ _ => refuses_requireSetting
  · exact refuses_requireContainer
  · exact refuses_requireContainer
  · exact refuses_requireContainer
  · exact refuses_requireContainer
  · exact refuses_requireContainer
  · refine refuses_requireSetting.bind fun _ _ => ?_
    exact refuses_requireSetting.bind fun _ _ => refuses_requireSetting
  · exact refuses_ok _
  · exact refuses_ok _

/-- Whether a field names the identity of its items. -/
def NamesIdentity (field : FieldDeclaration) : Prop :=
  (field.identityVariable.or field.identityPath).isSome = true

theorem refuses_sequenceIdentity (named : NamesIdentity field) :
    Refuses (sequenceIdentity field) := by
  obtain ⟨identity, found⟩ := Option.isSome_iff_exists.mp named
  exact refuses_expect found

/-- A checked keyed sequence names the identity of its items. -/
theorem namesIdentity_of_checked
    (checked : checkCollaborationStorage context field = .ok ⟨⟩)
    (keyed : field.storageKind = .keyedSequence) : NamesIdentity field := by
  unfold checkCollaborationStorage at checked
  rw [keyed] at checked
  obtain ⟨⟨⟩, identity, -⟩ := except_bind_ok checked
  unfold requireSetting at identity
  split at identity
  · next present =>
    unfold NamesIdentity
    cases path : field.identityPath with
    | none =>
        simp [FieldDeclaration.hasSetting, FieldDeclaration.storageSetting,
          path] at present
    | some name => cases field.identityVariable <;> rfl
  · cases identity

theorem refuses_mapM {Item Value : Type} {body : Item → Checked Value}
    (items : List Item) (refuses : ∀ item ∈ items, Refuses (body item)) :
    Refuses (items.mapM body) := by
  induction items with
  | nil =>
      rw [List.mapM_nil]
      exact refuses_pure _
  | cons item rest inductionHypothesis =>
      rw [List.mapM_cons]
      refine (refuses item List.mem_cons_self).bind fun _ _ => ?_
      refine Refuses.bind (inductionHypothesis ?_) fun _ _ => refuses_pure _
      exact fun later within => refuses later (List.mem_cons_of_mem _ within)

theorem refuses_checkContainerSetting {enclosing : List String} {key : String}
    (named : key = "itemContainerTemplate" →
      (field.storageSetting key).isSome = true → NamesIdentity field) :
    Refuses (checkContainerSetting context field enclosing key) := by
  unfold checkContainerSetting
  split
  · exact refuses_ok _
  · next template held =>
    refine Refuses.bind ?_ fun identities _ => ?_
    · unfold namedIdentities
      split
      · next own =>
        have identity := named own (by rw [held]; rfl)
        exact (refuses_sequenceIdentity identity).bind fun _ _ => refuses_pure _
      · exact refuses_pure _
    · exact refuses_forM _ fun _ _ => refuses_ite (fun _ => refuses_pure _)
        fun _ => refuses_refuse _

/--
Whether a field with item containers names an identity, where the check of its
containers comes to them.
-/
def ItemContainersNamed (context : String) (sequences : List FieldDeclaration)
    (field : FieldDeclaration) : Prop :=
  ∀ enclosing, enclosingIdentities sequences field = .ok enclosing →
    forM containerSettings (checkContainerSetting context field enclosing)
      = .ok ⟨⟩ →
    field.itemContainerTemplate.isSome = true → NamesIdentity field

theorem refuses_checkFieldContainers_iff {sequences : List FieldDeclaration}
    (named : ∀ sequence ∈ sequences, NamesIdentity sequence) :
    Refuses (checkFieldContainers context sequences field)
      ↔ ItemContainersNamed context sequences field := by
  have enclosed : Refuses (enclosingIdentities sequences field) :=
    refuses_mapM _ fun sequence within =>
      refuses_sequenceIdentity (named sequence (List.mem_filter.mp within).1)
  constructor
  · intro refuses enclosing identities others present
    by_contra unnamed
    obtain ⟨template, held⟩ := Option.isSome_iff_exists.mp present
    have identity : field.identityVariable.or field.identityPath = none := by
      simpa [NamesIdentity] using unnamed
    have panics : checkFieldContainers context sequences field
        = .error .panicked := by
      unfold checkFieldContainers
      rw [identities]
      show forM (containerSettings ++ ["itemContainerTemplate"])
        (checkContainerSetting context field enclosing) = .error .panicked
      rw [List.forM_append, others]
      unfold checkContainerSetting namedIdentities sequenceIdentity
      simp [FieldDeclaration.storageSetting, held, identity, expect, bind,
        Except.bind]
    obtain ⟨message, refused⟩ := refuses _ panics
    cases refused
  · intro item_named
    refine enclosed.bind fun enclosing identities => ?_
    rw [List.forM_append]
    refine Refuses.bind (refuses_forM _ fun key within => ?_) fun _ others => ?_
    · refine refuses_checkContainerSetting fun own => ?_
      subst own
      exact absurd within (by decide)
    · refine refuses_forM _ fun key within => ?_
      refine refuses_checkContainerSetting fun _ present => ?_
      obtain rfl := List.mem_singleton.mp within
      exact item_named enclosing identities others present

end Storage

/-! ## Fields -/

section Fields

variable {definition : Declarations} {context schemaName : String}
  {entitySchema : Members} {field : FieldDeclaration}

theorem refuses_checkPresence {presence : Presence} :
    Refuses (checkPresence context field presence) :=
  refuses_ite (fun _ => refuses_refuse _) fun _ =>
    refuses_ite (fun _ => refuses_refuse _) fun _ => refuses_ok _

theorem refuses_checkCodec : Refuses (checkCodec context field) := by
  refine refuses_ite (fun _ => refuses_refuse _) fun _ => ?_
  refine refuses_ite (fun _ => refuses_refuse _) fun _ => ?_
  exact refuses_ite (fun _ => refuses_refuse _) fun _ => refuses_ok _

theorem refuses_checkHeldObject {fieldSchema : Members} :
    Refuses (checkHeldObject context field fieldSchema) :=
  refuses_ite (fun _ => refuses_refuse _) fun _ => refuses_ok _

theorem refuses_checkCoverage {fields : List FieldDeclaration}
    {requiredPaths : List String} :
    Refuses (checkCoverage context fields requiredPaths) :=
  refuses_ite (fun _ => refuses_ok _) fun _ => refuses_refuse _

variable (followable : Followable definition.document)

include followable

theorem checkValueSchema_settles (valueSchema : Members) (declared : Followed) :
    Settles IsRefusal fun fuel =>
      checkValueSchema definition fuel field valueSchema declared context
        schemaName := by
  unfold checkValueSchema
  refine (settles_checked refuses_schemaRefName).discard.bind fun _ _ => ?_
  have compared : ∀ (declaredName : Option String) (message : String),
      Settles IsRefusal fun fuel =>
        dereferenceFrom definition.document none fuel valueSchema >>=
          fun value =>
            if value.1.isSome ∧ value.1 = declaredName then
              pure PUnit.unit
            else
              throw (.refused message) := by
    intro declaredName message
    refine (dereferenceFrom_settles followable none valueSchema).bind
      fun value _ => ?_
    split
    · exact settles_pure _
    · exact settles_refused _
  dsimp only
  split
  · split
    · exact settles_refused _
    · refine (dereferenceFrom_settles followable none _).bind fun item _ => ?_
      exact compared item.1 _
  · exact compared declared.name _

theorem checkSequenceItems_settles :
    Settles IsRefusal fun fuel =>
      checkSequenceItems definition fuel context entitySchema field := by
  refine (collaborationSchemaAt_settles followable entitySchema
    field.path).bind fun found _ => ?_
  split
  · exact settles_pure _
  · refine (dereference_settles followable _).bind fun items _ => ?_
    split
    · exact settles_refused _
    · exact settles_pure _

theorem checkField_settles :
    Settles IsRefusal fun fuel =>
      checkField definition fuel context schemaName entitySchema field := by
  refine (collaborationSchemaAt_settles followable entitySchema
    field.path).bind fun found _ => ?_
  split
  · exact settles_refused _
  · next followed _ =>
    refine (settles_checked refuses_checkPresence).bind fun _ _ => ?_
    refine (settles_checked refuses_checkCollaborationStorage).bind
      fun _ _ => ?_
    refine (settles_checked refuses_checkCodec).bind fun _ _ => ?_
    have held : Settles IsRefusal fun _ => settled
        (checkHeldObject context field followed.schema) :=
      settles_checked refuses_checkHeldObject
    dsimp only
    split
    · exact held
    · refine (checkValueSchema_settles followable _ followed).bind
        fun _ _ => ?_
      exact held

omit followable in
/-- A field that is checked has a checked storage. -/
theorem checkField_storage {fuel : Nat}
    (checked : Succeeds
      (checkField definition fuel context schemaName entitySchema field) ⟨⟩) :
    ∃ within, checkCollaborationStorage within field = .ok ⟨⟩ := by
  obtain ⟨found, -, checked⟩ := (succeeds_bind _ _ _).mp checked
  split at checked
  · cases checked
  · obtain ⟨⟨⟩, -, checked⟩ := (succeeds_bind _ _ _).mp checked
    obtain ⟨⟨⟩, storage, -⟩ := (succeeds_bind _ _ _).mp checked
    rw [succeeds_settled] at storage
    exact ⟨_, storage⟩

end Fields

end Clerkenwell.Codegen
