import Clerkenwell.Codegen.ModuleNames

/-!
# Identifiers of an accepted definition

When every identifier of the Rust bindings is one Rust admits, and no two names
of a scope share one.
-/

namespace Clerkenwell.Codegen

open Clerkenwell.Foundation Running

/-! ## What the generator adds to a name -/

section Fixed

variable {definition : Declarations}

/-- Whether a scope's names are spelled with nothing that is not admitted. -/
def FixedScope (scope : Scope) : Prop :=
  ∀ named ∈ scope, named.spelling.Fixed

theorem fixed_ownScope {identifiers : List String}
    (admitted : identifiers.all isRustIdentifier = true) :
    FixedScope (ownScope identifiers) := by
  intro named within
  obtain ⟨identifier, among, rfl⟩ := List.mem_map.mp within
  exact List.all_eq_true.mp admitted identifier among

theorem fixed_append {left right : Scope} (first : FixedScope left)
    (second : FixedScope right) : FixedScope (left ++ right) := by
  intro named within
  rcases List.mem_append.mp within with within | within
  · exact first named within
  · exact second named within

theorem fixed_variantScope (place names : List String) :
    FixedScope (variantScope place names) := by
  intro named within
  obtain ⟨name, -, rfl⟩ := List.mem_map.mp within
  exact trivial

theorem fixed_fieldScope (place : List String) (properties : Members) :
    FixedScope (fieldScope place properties) := by
  intro named within
  obtain ⟨name, -, rfl⟩ := List.mem_map.mp within
  exact trivial

theorem fixed_unionScopes {place : List String} {variants : Members} :
    ∀ scope ∈ unionScopes place variants, FixedScope scope := by
  intro scope within
  rcases List.mem_cons.mp within with rfl | within
  · exact fixed_variantScope _ _
  · obtain ⟨⟨tag, variant⟩, -, rfl⟩ := List.mem_map.mp within
    exact fixed_fieldScope _ _

theorem fixed_structScope {place : List String} {schema properties : Members} :
    FixedScope (structScope place schema properties) := by
  refine fixed_append (fixed_fieldScope _ _) ?_
  intro named within
  split at within
  · obtain rfl := List.mem_singleton.mp within
    have admitted : isRustIdentifier otherMembersField = true := by decide
    exact admitted
  · cases within

theorem fixed_entryScopes {name : String} {schema : Members} :
    ∀ scope ∈ entryScopes name schema, FixedScope scope := by
  unfold entryScopes
  dsimp only
  split
  · simp
  · split
    · simp
    · intro scope within
      obtain rfl := List.mem_singleton.mp within
      exact fixed_variantScope _ _
    · split
      · intro scope within
        obtain rfl := List.mem_singleton.mp within
        exact fixed_variantScope _ _
      · split
        · simp
        · split
          · exact fixed_unionScopes
          · split
            · simp
            · split
              · simp
              · intro scope within
                obtain rfl := List.mem_singleton.mp within
                exact fixed_structScope

theorem fixed_typeScope : FixedScope (typeScope definition) := by
  unfold typeScope
  refine fixed_append (fixed_append (fixed_append
    (fixed_ownScope (by decide)) ?_) (fixed_ownScope (by decide)))
    (fixed_ownScope (by decide))
  intro named within
  cases spelled : named.spelling with
  | own identifier => exact absurd spelled (spelling_ne_own within identifier)
  | constant name suffix =>
      rcases declaredTypeScope_cases within with ⟨helper, rfl⟩
        | ⟨entry, place, rfl | rfl⟩
      all_goals cases spelled
  | _ => exact trivial

theorem fixed_valueScope : FixedScope (valueScope definition) := by
  intro named within
  rcases valueScope_cases within with ⟨identifier, own, rfl⟩
    | ⟨row, listed, name, -, rfl⟩
  · have admitted : ownValues.all isRustIdentifier = true := by decide
    exact List.all_eq_true.mp admitted identifier own
  · have suffixes : constantRows.all (fun row =>
        row.2.2.toList.all isIdentifierCharacter) = true := by decide
    exact List.all_eq_true.mp suffixes row listed

theorem fixed_rustScopes : ∀ scope ∈ rustScopes definition, FixedScope scope := by
  intro scope within
  unfold rustScopes at within
  rcases List.mem_append.mp within with within | within
  · rcases List.mem_append.mp within with within | within
    · rcases List.mem_cons.mp within with rfl | within
      · exact fixed_typeScope
      · rcases List.mem_cons.mp within with rfl | within
        · exact fixed_valueScope
        · obtain ⟨helper, -, rfl⟩ := List.mem_map.mp within
          exact fixed_variantScope _ _
    · obtain ⟨⟨name, schema⟩, -, among⟩ := List.mem_flatMap.mp within
      exact fixed_entryScopes scope among
  · unfold dispatchScopes at within
    rcases List.mem_append.mp within with within | within
    · rcases List.mem_append.mp within with within | within
      · rw [List.eq_of_mem_replicate within]
        exact fixed_variantScope _ _
      · rw [List.eq_of_mem_replicate within]
        exact fixed_variantScope _ _
    · rw [List.eq_of_mem_replicate within]
      exact fixed_variantScope _ _

end Fixed

/-! ## The whole -/

section Bound

variable {definition : Declarations} {scientific : Scientific}

/-- Whether Rust admits every identifier of a scope. -/
def Admitted (scope : Scope) : Prop :=
  ∀ named ∈ scope, isRustIdentifier named.identifier = true

/-- Whether no name of a definition is one its spelling makes no identifier of. -/
def NamesAdmissible (definition : Declarations) : Prop :=
  ∀ scope ∈ rustScopes definition, ∀ named ∈ scope, named.spelling.Admissible

/-- Whether no type of a definition is spelled as a transport enum is. -/
def SpellsNoTransport (definition : Declarations) : Prop :=
  ∀ named ∈ declaredTypeScope definition, ¬named.spelling.SpellsTransport

theorem admitted_iff_admissible :
    (∀ scope ∈ rustScopes definition, Admitted scope)
      ↔ NamesAdmissible definition := by
  constructor
  · intro admitted scope within named among
    exact (Spelling.admitted_iff (fixed_rustScopes scope within named among)).mp
      (admitted scope within named among)
  · intro admissible scope within named among
    exact (Spelling.admitted_iff (fixed_rustScopes scope within named among)).mpr
      (admissible scope within named among)

theorem transport_iff_spellsTransport {named : Named}
    (within : named ∈ declaredTypeScope definition) :
    named.identifier ∈ transportEnums ↔ named.spelling.SpellsTransport := by
  unfold Named.identifier
  rcases declaredTypeScope_cases within with ⟨helper, rfl⟩
    | ⟨name, place, rfl | rfl⟩
  · exact helper_transport_iff helper.owner helper.property
  · exact pascal_transport_iff name
  · exact iff_of_false (constraints_not_transport name) id

/--
Every identifier that the Rust bindings of an accepted definition declare is
one Rust admits, and no two names of a scope share one, just where no name of
the definition is one its spelling makes no identifier of and no type of it is
spelled as one of the transport enums, which are not registered.
-/
theorem bound_identifiers_iff
    (accepted : Comes (checkSemantics definition scientific) ⟨⟩) :
    (∀ scope ∈ rustScopes definition, Admitted scope ∧ Distinct scope)
      ↔ NamesAdmissible definition ∧ SpellsNoTransport definition := by
  have types := distinct_typeScope_iff (registered_of_accepted accepted)
  have listed : typeScope definition ∈ rustScopes definition := by
    unfold rustScopes
    simp
  constructor
  · intro sound
    refine ⟨admitted_iff_admissible.mp fun scope within =>
      (sound scope within).1, ?_⟩
    intro named within transport
    exact types.mp (sound _ listed).2 named within
      ((transport_iff_spellsTransport within).mpr transport)
  · rintro ⟨admissible, plain⟩ scope within
    refine ⟨admitted_iff_admissible.mpr admissible scope within, ?_⟩
    rcases distinct_of_accepted accepted scope within with rfl | distinct
    · exact types.mpr fun named within transport =>
        plain named within ((transport_iff_spellsTransport within).mp transport)
    · exact distinct

instance : DecidablePred Spelling.Admissible
  | .own _ => isTrue trivial
  | .constraints _ => isTrue trivial
  | .helper _ _ => isTrue trivial
  | .pascal name => inferInstanceAs (Decidable (capitalised name ≠ "Self"))
  | .field name => inferInstanceAs (Decidable (∀ keyword ∈ unescapedKeywords,
      (words name).map asciiLowercase ≠ [keyword]))
  | .constant name _ =>
      inferInstanceAs (Decidable ((firstLetter name).all (!·.isDigit) = true))

instance : DecidablePred Spelling.SpellsTransport
  | .own _ => isFalse id
  | .constraints _ => isFalse id
  | .field _ => isFalse id
  | .constant _ _ => isFalse id
  | .pascal name =>
      inferInstanceAs (Decidable (capitalised name ∈ transportEnums))
  | .helper owner property => inferInstanceAs (Decidable
      (capitalised owner ≠ "" ∧ capitalised property ≠ ""
        ∧ capitalised owner ++ capitalised property ∈ transportEnums))

instance (definition : Declarations) : Decidable (NamesAdmissible definition) :=
  inferInstanceAs (Decidable (∀ scope ∈ rustScopes definition,
    ∀ named ∈ scope, named.spelling.Admissible))

instance (definition : Declarations) :
    Decidable (SpellsNoTransport definition) :=
  inferInstanceAs (Decidable (∀ named ∈ declaredTypeScope definition,
    ¬named.spelling.SpellsTransport))

/-- The bindings of the settings are all of identifiers told apart. -/
theorem settings_identifiers_bound :
    rustScopes settings ≠ []
      ∧ ∀ scope ∈ rustScopes settings, Admitted scope ∧ Distinct scope := by
  have accepted : Comes (checkSemantics settings naturals) ⟨⟩ :=
    ⟨6, succeeds_of_isOk (by decide +kernel)⟩
  have named : NamesAdmissible settings := by decide +kernel
  have plain : SpellsNoTransport settings := by decide +kernel
  exact ⟨by decide, (bound_identifiers_iff accepted).mpr ⟨named, plain⟩⟩

end Bound

/-! ## A field named by a keyword -/

section Jobs

def ofType (type : String) : Json :=
  .object [("type", .string type)]

def unsigned : Json :=
  .object [("type", .string "integer"), ("minimum", .number 0),
    ("maximum", .number 4294967295)]

/-- The entries the generator declares in every definition. -/
def sharedEntries : Members :=
  [("AuthoringState", .object (closedSchema
      [("schema_version", unsigned), ("accepted_frontier_base64", ofType "string"),
        ("update_base64", ofType "string"), ("etag", ofType "string"),
        ("exchange_modes", .object [("type", .string "array"),
          ("items", .object (referenceTo "CollaborationExchangeMode"))]),
        ("peer_block", .object (referenceTo "AuthoringPeerBlock")),
        ("replaces_held", ofType "boolean")])),
    ("AuthoringStatePatch", .object
      [("type", .string "object"), ("additionalProperties", .bool false),
        ("required", .array [.string "kind"]),
        ("properties", .object
          [("kind", .object [("type", .string "string"),
              ("enum", .array [.string "replace", .string "remove"])]),
            ("state", .object (referenceTo "AuthoringState"))])]),
    ("AuthoringPeerBlock", .object (closedSchema
      [("nonce", ofType "string"), ("base", ofType "string"),
        ("index_bits", unsigned)])),
    ("CollaborationExchangeMode", .object
      [("type", .string "string"),
        ("enum", .array [.string "incremental", .string "bootstrap"])])]

/-- Jobs, each of which is run at once or `async`. -/
def jobs : Declarations where
  document :=
    { namespaceName := "jobs"
      entities := []
      projections := []
      mutations := []
      commands := []
      collaboration := []
      defs :=
        [("Job", .object (closedSchema
            [("id", ofType "string"), ("revision", ofType "string"),
              ("async", ofType "boolean")])),
          ("JobParams", .object (closedSchema [("id", ofType "string")])),
          ("JobPatch", .object (closedSchema
            [("kind", .object [("type", .string "string"),
              ("enum", .array [.string "reset"])]),
              ("id", ofType "string")]))] ++ sharedEntries }
  entities :=
    [{ name := "job"
       id := "id"
       schema := referenceTo "Job"
       revision := .contentHash "revision"
       authoringKind := .optimisticDocument
       planningMutations := [] }]
  projections :=
    [{ name := "job.byId"
       params := referenceTo "JobParams"
       snapshot := referenceTo "JobParams"
       patch := referenceTo "JobPatch"
       materialization := .reset
       dependsOn := ["job"] }]
  mutations :=
    [{ name := "job.run"
       params := referenceTo "JobParams"
       result := referenceTo "Job"
       touches := ["job"] }]
  commands := []
  collaboration := []

/-- The bindings of the jobs are accepted, and name a field `async`. -/
theorem async_field_not_admitted :
    Comes (checkSemantics jobs naturals) ⟨⟩
      ∧ ¬∀ scope ∈ rustScopes jobs, Admitted scope ∧ Distinct scope := by
  have refused : ∃ scope ∈ rustScopes jobs, ∃ named ∈ scope,
      isRustIdentifier named.identifier = false := by decide +kernel
  refine ⟨⟨12, succeeds_of_isOk (by decide +kernel)⟩, ?_⟩
  intro sound
  obtain ⟨scope, within, named, among, refused⟩ := refused
  rw [(sound scope within).1 named among] at refused
  cases refused

end Jobs

end Clerkenwell.Codegen
