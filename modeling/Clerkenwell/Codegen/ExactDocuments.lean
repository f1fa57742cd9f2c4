import Clerkenwell.Codegen.WrittenDocuments

/-!
# Exact documents

When the document of a parameters, result or snapshot schema is self-contained
and validates just what the definition admits.  A tagged union is checked no
further than its variants, and what it declares beside them is written as it is.
-/

namespace Clerkenwell.Codegen

open Clerkenwell.Foundation Running JsonSchema

/-! ## What a document is to be -/

section Exact

/-- The parameters, results and snapshots of a definition. -/
def documentReferences (definition : Declarations) : List Members :=
  (definition.projections.flatMap fun projection =>
      [projection.params, projection.snapshot])
    ++ (definition.mutations ++ definition.commands).flatMap fun operation =>
      [operation.params, operation.result]

variable (definition : Sections) (root : Members)

/-- The entries that a root reaches by what is referenced within schemas. -/
inductive Reachable : String → Prop where
  | direct {reference : Json} {name : String}
      (refers : Refers (.object root) reference)
      (named : localReferenceName (some reference) = some name) : Reachable name
  | along {name other : String} {target : Members} {reference : Json}
      (reached : Reachable name) (entry : definition.def? name = some target)
      (refers : Refers (.object target) reference)
      (named : localReferenceName (some reference) = some other) :
      Reachable other

/-- What a document has of a schema: itself of its root, and of each entry its own. -/
inductive Includes (document : Members) : Members → Json → Prop where
  | root : Includes document root (.object document)
  | entry {name : String} {target : Members} {inner : Json}
      (found : definition.def? name = some target)
      (held : (documentDefs document).get? name = some inner) :
      Includes document target inner

/--
A document that is self-contained, with only entries that its root reaches, each
once, and that validates just what the definition admits.
-/
structure ExactDocument (document : Members) : Prop where
  referenced : ∀ reference, Refers (.object document) reference →
    ∃ name, localReferenceName (some reference) = some name
      ∧ name ∈ (documentDefs document).keys
  reachable : ∀ name ∈ (documentDefs document).keys,
    Reachable definition root name
  once : (documentDefs document).keys.Nodup
  exact : ∀ schema json, Includes definition root document schema json →
    ∀ value, value.WellFormed →
      (Validates (documentDefs document) json value
        ↔ Valid definition schema value)

/-- A root, and the entries that it reaches. -/
def Included (schema : Members) : Prop :=
  schema = root ∨ ∃ name, Reaches references definition.def? root name
    ∧ definition.def? name = some schema

/--
What a tagged union declares beside its variants can be written, references
entries that are reached, and leaves out no value of the variants.
-/
structure KeepsVariants (union : Members) : Prop where
  convertible : ∀ items, objectField union "items" = some items →
    ∀ inner, Nested items inner → Convertible inner
  named : ∀ items reference, union.get? "items" = some items →
    Refers items reference → ∃ name target,
      localReferenceName (some reference) = some name
        ∧ Reaches references definition.def? root name
        ∧ definition.def? name = some target
  beside : BesideVariants definition union

/-- Every tagged union that a root reaches keeps its variants. -/
def UnionsKept : Prop :=
  ∀ union, Included definition root union →
    (union.get? "oneOf").isSome = true → KeepsVariants definition root union

end Exact

/-! ## Keywords told of -/

section Keywords

variable {defs schema other : Members} {value : Json} {fuel : Nat}

/-- What a schema validates is told by its keywords. -/
theorem validates_congr
    (same : ∀ keyword ∈ JsonSchema.keywords,
      schema.get? keyword = other.get? keyword) :
    validates defs fuel (.object schema) value
      = validates defs fuel (.object other) value := by
  have numbers : ∀ keyword ∈ JsonSchema.keywords,
      numberField schema keyword = numberField other keyword := by
    intro keyword within
    rw [numberField, numberField, same keyword within]
  have members_same : ∀ name,
      memberSchema schema name = memberSchema other name := by
    intro name
    rw [memberSchema, memberSchema, objectField, objectField,
      same "properties" (by decide), same "additionalProperties" (by decide)]
  have asserted_same : asserted schema value = asserted other value := by
    have bounded_same : bounded schema value = bounded other value := by
      unfold bounded
      rw [numbers "minLength" (by decide), numbers "minimum" (by decide),
        numbers "maximum" (by decide)]
    have formatted_same : formatted schema value = formatted other value := by
      unfold formatted strField
      rw [same "format" (by decide)]
    rw [asserted, asserted, typed_congr (same "type" (by decide)),
      listed_congr (same "enum" (by decide)),
      constant_congr (same "const" (by decide)), bounded_same, formatted_same,
      required_congr (same "required" (by decide))]
  cases fuel with
  | zero => rfl
  | succ fuel =>
      have items_same : itemsValid (validates defs fuel) schema value
          = itemsValid (validates defs fuel) other value := by
        unfold itemsValid
        rw [same "items" (by decide)]
      have valid_same : membersValid (validates defs fuel) schema value
          = membersValid (validates defs fuel) other value := by
        unfold membersValid
        simp only [members_same]
      rw [validates, validates, asserted_same, valid_same, items_same,
        referenced, referenced, oneValid, oneValid, same "$ref" (by decide),
        same "oneOf" (by decide)]

theorem asserted_of_validates
    (valid : validates defs fuel (.object schema) value = true) :
    asserted schema value = true := by
  cases fuel with
  | zero => cases valid
  | succ fuel =>
      rw [validates] at valid
      simp only [Bool.and_eq_true] at valid
      exact valid.1.1.1.1

end Keywords

/-! ## Checked definitions -/

theorem exists_get?_of_mem_keys {members : Members} {name : String}
    (within : name ∈ members.keys) :
    ∃ value, members.get? name = some value := by
  rw [← Option.isSome_iff_exists, Option.isSome_iff_ne_none, Ne,
    Members.get?_eq_none_iff, not_not]
  exact within

section Checked

variable {scientific : Scientific} {definition : Sections} {root schema : Members}
  {name : String}

/-- Every entry of a checked definition is a schema. -/
theorem checkDefinitions_objects {fuel : Nat}
    (checked : Succeeds (checkDefinitions scientific definition fuel) ⟨⟩) :
    ∀ member ∈ definition.defs, ∃ schema, member.2 = .object schema := by
  intro member within
  rw [checkDefinitions] at checked
  rcases (succeeds_bind _ _ _).mp checked with ⟨names, every, -⟩
  rcases succeeds_foldlM_mem every within with ⟨earlier, after, one⟩
  dsimp only at one
  split at one
  · cases one
  · rcases (succeeds_bind _ _ _).mp one with ⟨⟨⟩, node, -⟩
    exact object_of_checked node

theorem CheckedUnder.undefined
    (checked : CheckedUnder scientific definition schema) :
    schema.get? "$defs" = none := by
  by_contra held
  exact absurd (checked.node.known_keyword held) (by decide)

/-- What the checks before a definition's operations show of its entries. -/
structure CheckedEntries (scientific : Scientific) (definition : Sections) :
    Prop where
  followable : Followable definition
  checked : ∀ name schema, definition.def? name = some schema →
    CheckedUnder scientific definition schema
  objects : ∀ member ∈ definition.defs, ∃ schema, member.2 = .object schema
  wellFormed : (Json.object definition.defs).WellFormed

theorem checkedEntries_of_accepted {definition : Declarations}
    (accepted : Comes (checkSemantics definition scientific) ⟨⟩)
    (wellFormed : (Json.object definition.document.defs).WellFormed) :
    CheckedEntries scientific definition.document := by
  rcases accepted with ⟨fuel, accepted⟩
  rcases (succeeds_bind _ _ _).mp accepted with ⟨⟨⟩, before, -⟩
  rw [checkBeforeCollaboration] at before
  split at before
  · cases before
  · rcases (succeeds_bind _ _ _).mp before with ⟨⟨⟩, chains, before⟩
    rcases (succeeds_bind _ _ _).mp before with ⟨⟨⟩, definitions, -⟩
    constructor
    · exact followable_of_checked ⟨fuel, chains⟩
    · intro name schema found
      rcases checkDefinitions_def? definitions found with ⟨within, node⟩
      exact ⟨name, within, node⟩
    · exact checkDefinitions_objects definitions
    · exact wellFormed

/-- Each parameters, result and snapshot reference of a definition is an entry. -/
theorem documentReferences_named {definition : Declarations} {reference : Members}
    (accepted : Comes (checkSemantics definition scientific) ⟨⟩)
    (among : reference ∈ documentReferences definition) :
    ∃ name root, localReferenceName (reference.get? "$ref") = some name
      ∧ definition.document.def? name = some root := by
  rcases accepted with ⟨fuel, accepted⟩
  rcases (succeeds_bind _ _ _).mp accepted with ⟨⟨⟩, -, accepted⟩
  rcases (succeeds_bind _ _ _).mp accepted with ⟨⟨⟩, -, after⟩
  rw [succeeds_settled, checkAfterCollaboration] at after
  rcases except_bind_ok after with ⟨⟨⟩, -, after⟩
  rcases except_bind_ok after with ⟨⟨⟩, projections, after⟩
  rcases except_bind_ok after with ⟨⟨⟩, mutations, after⟩
  rcases except_bind_ok after with ⟨⟨⟩, commands, -⟩
  have resolved : ∀ context, discard (schemaRefName definition.document reference
      context) = Except.ok PUnit.unit →
        ∃ name root, localReferenceName (reference.get? "$ref") = some name
          ∧ definition.document.def? name = some root := by
    intro context one
    cases named : schemaRefName definition.document reference context with
    | error failure =>
        rw [named] at one
        cases one
    | ok name =>
        rcases schemaRefName_ok named with ⟨reference_named, root, found⟩
        exact ⟨name, root, reference_named, found⟩
  have operations : ∀ section_ operation,
      checkOperation definition section_ operation = .ok ⟨⟩ →
        reference ∈ [operation.params, operation.result] →
          ∃ name root, localReferenceName (reference.get? "$ref") = some name
            ∧ definition.document.def? name = some root := by
    intro section_ operation one either
    rw [checkOperation] at one
    rcases except_bind_ok one with ⟨⟨⟩, params, one⟩
    rcases except_bind_ok one with ⟨⟨⟩, result, -⟩
    simp only [List.mem_cons, List.not_mem_nil, or_false] at either
    rcases either with rfl | rfl
    · exact resolved _ params
    · exact resolved _ result
  rw [documentReferences, List.mem_append, List.mem_flatMap, List.mem_flatMap]
    at among
  rcases among with ⟨projection, within, either⟩ | ⟨operation, within, either⟩
  · have one := forM_eq_ok_iff.mp projections projection within
    rw [checkProjection] at one
    rcases except_bind_ok one with ⟨⟨⟩, params, one⟩
    rcases except_bind_ok one with ⟨⟨⟩, snapshot, -⟩
    simp only [List.mem_cons, List.not_mem_nil, or_false] at either
    rcases either with rfl | rfl
    · exact resolved _ params
    · exact resolved _ snapshot
  · rcases List.mem_append.mp within with within | within
    · exact operations _ operation
        (forM_eq_ok_iff.mp mutations operation within) either
    · exact operations _ operation
        (forM_eq_ok_iff.mp commands operation within) either

variable (entries : CheckedEntries scientific definition)

include entries

theorem CheckedEntries.wellFormed_entry
    (found : definition.def? name = some schema) :
    (Json.object schema).WellFormed :=
  wellFormed_objectField entries.wellFormed found

theorem CheckedEntries.rooted {name : String}
    (found : definition.def? name = some schema) :
    Rooted definition schema where
  nodup := nodup_of_wellFormed (entries.wellFormed_entry found)
  undefined := (entries.checked name schema found).undefined
  distinct := nodup_of_wellFormed entries.wellFormed

end Checked

/-! ## Where every union keeps its variants -/

section Kept

variable {scientific : Scientific} {definition : Sections}
  {root schema reference : Members} {name : String}

theorem Included.entry (included : Included definition root schema)
    (found : definition.def? name = some root) :
    ∃ name, definition.def? name = some schema := by
  rcases included with rfl | ⟨other, -, entry⟩
  · exact ⟨name, found⟩
  · exact ⟨other, entry⟩

/-- What an included schema names is reached. -/
theorem Included.reaches (included : Included definition root schema)
    (named : name ∈ references schema) :
    Reaches references definition.def? root name := by
  rcases included with rfl | ⟨other, reached, entry⟩
  · exact .direct named
  · exact .along reached entry named

variable (entries : CheckedEntries scientific definition)
  (found : definition.def? name = some root)
  (kept : UnionsKept definition root)

include entries found kept

/-- Whatever an included schema references is an entry that is reached. -/
theorem CheckedEntries.refers_known (included : Included definition root schema)
    {referenced : Json} (refers : Refers (.object schema) referenced) :
    ∃ other target, localReferenceName (some referenced) = some other
      ∧ Reaches references definition.def? root other
      ∧ definition.def? other = some target := by
  rcases included.entry found with ⟨own, entry⟩
  rcases (entries.checked own schema entry).refers_cases refers
    with ⟨other, target, named, among, held⟩ | ⟨tagged, items, held, within⟩
  · exact ⟨other, target, named, included.reaches among, held⟩
  · exact (kept schema included tagged).named items referenced held within

theorem CheckedEntries.known {other : String}
    (reaches : Reaches references definition.def? root other) :
    (definition.def? other).isSome = true := by
  have told : ∀ schema, Included definition root schema →
      other ∈ references schema → (definition.def? other).isSome = true := by
    intro schema included among
    rcases refers_of_mem_references among with ⟨referenced, refers, named⟩
    rcases entries.refers_known found kept included refers
      with ⟨also, target, also_named, -, held⟩
    obtain rfl := Option.some.inj (named.symm.trans also_named)
    rw [held]
    rfl
  cases reaches with
  | direct among => exact told root (Or.inl rfl) among
  | along reached entry among => exact told _ (Or.inr ⟨_, reached, entry⟩) among

/-- Every included schema can be written. -/
theorem CheckedEntries.writes (included : Included definition root schema) :
    ∃ converted, jsonSchema schema = .ok converted := by
  rcases included.entry found with ⟨own, entry⟩
  apply jsonSchema_writes schema (entries.wellFormed_entry entry)
  intro inner nested
  rcases (entries.checked own schema entry).convertible_cases nested
    with convertible | ⟨tagged, items, held, within⟩
  · exact convertible
  · exact (kept schema included tagged).convertible items held inner within

theorem CheckedEntries.gathers {reached : List String}
    (sound : ∀ name ∈ reached, Reaches references definition.def? root name) :
    ∃ entries, reachedDefs definition reached = .ok entries := by
  apply reachedDefs_writes entries.objects
  intro other met schema within
  have entry : definition.def? other = some schema := by
    rw [Sections.def?, objectField_eq_some]
    exact (Members.get?_eq_some_iff
      (nodup_of_wellFormed entries.wellFormed) _ _).mpr within
  exact entries.writes found kept (Or.inr ⟨other, sound other met, entry⟩)

variable {members converted document : Members} {reached : List String}
  (made : DocumentOf definition root reached members converted document)

include made

/-- What a document has of a schema that is included renders it. -/
theorem CheckedEntries.writtenNode (included : Included definition root schema)
    {result : Members} (written : jsonSchema schema = .ok result) :
    WrittenNode scientific definition reached (.object result) schema := by
  rcases included.entry found with ⟨own, entry⟩
  constructor
  · exact ⟨result, written, rfl⟩
  · exact entries.checked own schema entry
  · exact entries.wellFormed_entry entry
  · intro other among
    exact made.explored.mem_iff.mpr (included.reaches among)
  · intro tagged
    exact (kept schema included tagged).beside tagged

theorem CheckedEntries.rendering :
    Rendering scientific definition (documentDefs document)
      (WrittenNode scientific definition reached) := by
  have rooted := entries.rooted found
  apply written_rendering
  intro other met
  have reaches := made.explored.mem_iff.mp met
  have within := (made.mem_keys_iff rooted).mpr reaches
  rcases exists_get?_of_mem_keys within with ⟨inner, held⟩
  rcases made.get?_defs rooted held
    with ⟨schema, result, entry, -, written, rfl⟩
  exact ⟨schema, _, entry, held,
    entries.writtenNode found kept made (Or.inr ⟨other, reaches, entry⟩) written⟩

theorem CheckedEntries.exactDocument : ExactDocument definition root document := by
  have root_wellFormed := entries.wellFormed_entry found
  have rooted := entries.rooted found
  have rendering := entries.rendering found kept made
  have validates_included : ∀ schema result, Included definition root schema →
      jsonSchema schema = .ok result → ∀ value, value.WellFormed →
        (Validates (documentDefs document) (.object result) value
          ↔ Valid definition schema value) := by
    intro schema result included written value wellFormed
    rcases included.entry found with ⟨own, entry⟩
    exact rendering.validates_iff entries.followable
      (fun name schema held => (entries.checked name schema held).node)
      (entries.writtenNode found kept made included written) wellFormed
  constructor
  · intro referenced refers
    have told : ∀ schema result, Included definition root schema →
        jsonSchema schema = .ok result → Refers (.object result) referenced →
          ∃ other, localReferenceName (some referenced) = some other
            ∧ other ∈ (documentDefs document).keys := by
      intro schema result included written within
      rcases included.entry found with ⟨own, entry⟩
      have mirrored := (Mirrors.refers_iff (.written written)
        (entries.wellFormed_entry entry) referenced).mp within
      rcases entries.refers_known found kept included mirrored
        with ⟨other, target, named, reaches, -⟩
      exact ⟨other, named,
        (made.mem_keys_iff rooted).mpr reaches⟩
    rcases refers_iff.mp refers with own | ⟨inner, within, later⟩
    · apply told root converted (Or.inl rfl) made.written
      apply refers_iff.mpr (Or.inl _)
      rw [← own]
      exact (made.get?_eq rooted (by decide)).symm
    · rcases (made.within_iff rooted).mp within
        with within | ⟨other, member⟩
      · apply told root converted (Or.inl rfl) made.written
        exact refers_iff.mpr (Or.inr ⟨inner, within, later⟩)
      · have held := (Members.get?_eq_some_iff
          (made.defs_nodup rooted) _ _).mpr member
        rcases made.get?_defs rooted held
          with ⟨schema, result, entry, reaches, written, rfl⟩
        exact told schema result (Or.inr ⟨other, reaches, entry⟩) written later
  · intro other within
    have reaches := (made.mem_keys_iff rooted).mp within
    clear within
    induction reaches with
    | direct among =>
        rcases refers_of_mem_references among with ⟨referenced, refers, named⟩
        exact .direct refers named
    | along _ entry among inductionHypothesis =>
        rcases refers_of_mem_references among with ⟨referenced, refers, named⟩
        exact .along inductionHypothesis entry refers named
  · exact made.defs_nodup rooted
  · intro schema json includes value wellFormed
    cases includes with
    | root =>
        have apart : ∀ keyword ∈ JsonSchema.keywords, keyword ≠ "$defs" := by
          decide
        have told := validates_included root converted (Or.inl rfl) made.written
          value wellFormed
        rw [← told]
        apply Filter.eventually_congr
        apply Filter.Eventually.of_forall
        intro fuel
        rw [validates_congr fun keyword within =>
          made.get?_eq rooted (apart keyword within)]
    | @entry other _ _ entry held =>
        rcases made.get?_defs rooted held
          with ⟨also, result, also_entry, reaches, written, rfl⟩
        obtain rfl := Option.some.inj (entry.symm.trans also_entry)
        exact validates_included _ result (Or.inr ⟨other, reaches, entry⟩)
          written value wellFormed

end Kept

/-! ## What an exact document shows -/

section Shown

variable {scientific : Scientific} {definition : Sections}
  {root schema members converted document : Members} {name : String}
  {reached : List String}
  (entries : CheckedEntries scientific definition)
  (found : definition.def? name = some root)
  (made : DocumentOf definition root reached members converted document)

include entries found made

/-- A document has a schema of each that is included, of its written keywords. -/
theorem CheckedEntries.includes (included : Included definition root schema) :
    ∃ result json : Members, jsonSchema schema = .ok result
      ∧ Includes definition root document schema (.object json)
      ∧ (∀ keyword, keyword ≠ "$defs" →
        json.get? keyword = result.get? keyword)
      ∧ ∀ referenced, Refers (.object result) referenced →
        Refers (.object document) referenced := by
  have rooted := entries.rooted found
  rcases included with rfl | ⟨other, reaches, entry⟩
  · refine ⟨converted, document, made.written, .root,
      fun keyword apart => made.get?_eq rooted apart, ?_⟩
    intro referenced refers
    rcases refers_iff.mp refers with own | ⟨inner, within, later⟩
    · apply refers_iff.mpr (Or.inl _)
      rw [← own]
      exact made.get?_eq rooted (by decide)
    · exact refers_iff.mpr (Or.inr ⟨inner,
        (made.within_iff rooted).mpr (Or.inl within), later⟩)
  · have listed := (made.mem_keys_iff rooted).mpr reaches
    rcases exists_get?_of_mem_keys listed with ⟨inner, held⟩
    rcases made.get?_defs rooted held
      with ⟨also, result, also_entry, -, written, rfl⟩
    obtain rfl := Option.some.inj (entry.symm.trans also_entry)
    refine ⟨result, result, written, .entry entry held, fun _ _ => rfl, ?_⟩
    intro referenced refers
    exact refers_iff.mpr (Or.inr ⟨_, (made.within_iff rooted).mpr
      (Or.inr ⟨other, Members.mem_of_get? held⟩), refers⟩)

/-- Every union of an exact document keeps its variants. -/
theorem CheckedEntries.unionsKept
    (exact_document : ExactDocument definition root document) :
    UnionsKept definition root := by
  have rooted := entries.rooted found
  intro union included tagged
  rcases included.entry found with ⟨own, entry⟩
  have wellFormed := entries.wellFormed_entry entry
  rcases entries.includes found made included
    with ⟨result, json, written, includes, same, refers_document⟩
  constructor
  · intro items declared inner nested
    have inside : items ∈ subschemas union :=
      mem_subschemas_iff.mpr (Or.inl ⟨"items", by simp, declared⟩)
    exact convertible_of_nested (.head inside nested) wellFormed written
  · intro items referenced held refers
    have within : Refers (.object union) referenced :=
      refers_iff.mpr (Or.inr ⟨items, .keyed (by simp) held, refers⟩)
    have mirrored := (Mirrors.refers_iff (.written written) wellFormed
      referenced).mpr within
    rcases exact_document.referenced referenced (refers_document _ mirrored)
      with ⟨other, named, listed⟩
    have reaches := (made.mem_keys_iff rooted).mp listed
    have met := made.explored.mem_iff.mpr reaches
    rcases made.explored.closed other met with ⟨target, target_entry, -⟩
    exact ⟨other, target, named, reaches, target_entry⟩
  · intro _ value value_wellFormed valid
    have validates := (exact_document.exact union _ includes value
      value_wellFormed).mpr valid
    rcases validates.exists with ⟨fuel, validates⟩
    rcases asserted_iff.mp (asserted_of_validates validates)
      with ⟨-, -, told_constant, -, told_required⟩
    have nodup := nodup_of_wellFormed wellFormed
    rw [required_congr ((same "required" (by decide)).trans
      (written_other written nodup (by decide)))] at told_required
    rw [constant_congr ((same "const" (by decide)).trans
      (written_other written nodup (by decide)))] at told_constant
    exact ⟨told_required, told_constant⟩

end Shown

/--
Of an accepted definition, the document of a parameters, result or snapshot
schema is self-contained and exact just where every tagged union that the schema
reaches keeps its variants.
-/
theorem schemaDocument_exact_iff {scientific : Scientific}
    {definition : Declarations} {reference : Members}
    (accepted : Comes (checkSemantics definition scientific) ⟨⟩)
    (wellFormed : (Json.object definition.document.defs).WellFormed)
    (among : reference ∈ documentReferences definition) :
    ∃ name root, localReferenceName (reference.get? "$ref") = some name
      ∧ definition.document.def? name = some root
      ∧ ((∃ document,
          Comes (schemaDocument definition.document reference) (.object document)
            ∧ ExactDocument definition.document root document)
        ↔ UnionsKept definition.document root) := by
  have entries := checkedEntries_of_accepted accepted wellFormed
  rcases documentReferences_named accepted among with ⟨name, root, named, found⟩
  refine ⟨name, root, named, found, ?_⟩
  constructor
  · rintro ⟨document, comes, exact_document⟩
    rcases documentOf_of_comes named found comes
      with ⟨reached, members, converted, made⟩
    exact entries.unionsKept found made exact_document
  · intro kept
    rcases entries.writes found kept (Or.inl rfl) with ⟨converted, written⟩
    rcases schemaDocument_comes named found
        (fun other reaches => entries.known found kept reaches)
        (fun reached sound => entries.gathers found kept sound) written
      with ⟨document, comes⟩
    rcases documentOf_of_comes named found comes
      with ⟨reached, members, result, made⟩
    exact ⟨document, comes, entries.exactDocument found kept made⟩

/-! ## Outcomes -/

section Outcomes

/-- An outcome, and what is declared beside its variants. -/
def outcomeSchema (beside : Members) : Members :=
  [("type", .string "object"), ("discriminator", .string "kind"),
    ("oneOf", .object
      [("done", .object (closedSchema [])),
        ("failed", .object (closedSchema
          [("message", .object [("type", .string "string")])]))])] ++ beside

/-- Jobs with outcomes. -/
def outcomes (beside : Members) : Declarations where
  document :=
    { namespaceName := "jobs"
      entities := []
      projections := []
      mutations := []
      commands := []
      collaboration := []
      defs :=
        [("Outcome", .object (outcomeSchema beside)),
          ("OutcomeParams", .object (closedSchema [])),
          ("OutcomePatch", .object (closedSchema
            [("kind", .object [("type", .string "string"),
              ("enum", .array [.string "reset"])])]))] }
  entities := []
  projections :=
    [{ name := "jobs.outcome"
       params := referenceTo "OutcomeParams"
       snapshot := referenceTo "Outcome"
       patch := referenceTo "OutcomePatch"
       materialization := .reset
       dependsOn := [] }]
  mutations := []
  commands := []
  collaboration := []

theorem accepted_outcomes :
    Comes (checkSemantics (outcomes []) naturals) ⟨⟩ :=
  ⟨6, succeeds_of_isOk (by decide +kernel)⟩

theorem wellFormed_outcomes :
    (Json.object (outcomes []).document.defs).WellFormed := by
  decide +kernel

/-- An outcome with nothing beside its variants has an exact document. -/
theorem outcomes_document_exact :
    ∃ document, Comes (schemaDocument (outcomes []).document
        (referenceTo "Outcome")) (.object document)
      ∧ ExactDocument (outcomes []).document (outcomeSchema []) document := by
  have among : referenceTo "Outcome" ∈ documentReferences (outcomes []) := by
    simp [documentReferences, outcomes]
  rcases schemaDocument_exact_iff accepted_outcomes wellFormed_outcomes among
    with ⟨name, root, named, found, exact_iff⟩
  have outcome_named : localReferenceName ((referenceTo "Outcome").get? "$ref")
      = some "Outcome" := by
    decide +kernel
  obtain rfl := Option.some.inj (outcome_named.symm.trans named)
  obtain rfl := Option.some.inj found
  apply exact_iff.mpr
  intro union included tagged
  have plain : union.get? "items" = none ∧ union.get? "required" = none
      ∧ union.get? "const" = none := by
    rcases included.entry found with ⟨own, entry⟩
    have within := Members.mem_of_get? (objectField_eq_some.mp entry)
    simp only [outcomes, List.mem_cons, List.not_mem_nil, or_false,
      Prod.mk.injEq] at within
    rcases within with ⟨-, same⟩ | ⟨-, same⟩ | ⟨-, same⟩
    · obtain rfl := Json.object.inj same
      decide
    · obtain rfl := Json.object.inj same
      cases tagged
    · obtain rfl := Json.object.inj same
      cases tagged
  constructor
  · intro items declared
    rw [objectField, plain.1] at declared
    cases declared
  · intro items referenced held
    rw [plain.1] at held
    cases held
  · intro _ value _ _
    unfold required constant
    rw [plain.2.1, plain.2.2]
    cases value with
    | _ => exact ⟨rfl, rfl⟩

end Outcomes

end Clerkenwell.Codegen
