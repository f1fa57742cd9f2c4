import Clerkenwell.Codegen.NamedSections

/-!
# Whether the normalised definition depends on member order

It does exactly where an object of a named section holds two different keys,
neither an array index, that collate equal.
-/

namespace Clerkenwell.Codegen

open Clerkenwell.Foundation

/-! ## Definitions -/

/-- The shape a checked definition has where normalisation reads it. -/
structure Shaped (document : Members) : Prop where
  version : ∃ version, numberField document "version" = some version
  namespaceName : ∃ name, strField document "namespace" = some name
  sections : ∀ key ∈ ["entities", "projections", "mutations", "$defs"],
    ∃ entries, objectField document key = some entries
  listed : ∀ key ∈
      ["entities", "projections", "mutations", "commands", "$defs"],
    ∀ entries, objectField document key = some entries → Listed "name" entries
  collaboration : ∃ collaboration entities version,
    objectField document "collaboration" = some collaboration
      ∧ numberField collaboration "version" = some version
      ∧ objectField collaboration "entities" = some entities
      ∧ ∀ name value, entities.get? name = some value → ListedEntity value

/-- A checked definition's document. -/
structure Definition where
  document : Members
  wellFormed : (Json.object document).WellFormed
  shaped : Shaped document

/-- A section's entries; none where it is left out. -/
def sectionOf (document : Members) (key : String) : Members :=
  (objectField document key).getD []

/-- The collaborative entities of a definition. -/
def collaborative (document : Members) : Members :=
  sectionOf (sectionOf document "collaboration") "entities"

variable (collator : Collator) (scientific : Scientific)

/-- However a definition's objects are ordered, one text comes of it. -/
def OrderIndependent (definition : Definition) : Prop :=
  ∀ other : Definition,
    Reordered (.object definition.document) (.object other.document) →
      renderNormalizedDefinition collator scientific other.document
        = renderNormalizedDefinition collator scientific definition.document

/-- No object of a named section holds two different keys that collate equal. -/
def Settled (document : Members) : Prop :=
  (∀ key ∈ ["entities", "projections", "mutations", "commands", "$defs"],
      (Json.object (sectionOf document key)).Steady collator)
    ∧ (Json.object (collaborative document)).Steady collator

section Documents

variable {collator} {scientific} {document others : Members}

theorem numberField_reordered (nodup : document.keys.Nodup)
    (reordered : Reordered (.object document) (.object others)) {key : String}
    {value : Dyadic} (held : numberField document key = some value) :
    numberField others key = some value := by
  obtain ⟨found, found_held, number⟩ := Option.bind_eq_some_iff.mp held
  obtain ⟨other, other_held, alike⟩ := reordered.get? nodup found_held
  cases alike <;> simp [Json.asNumber] at number
  simp [numberField, other_held, Json.asNumber, number]

theorem strField_reordered (nodup : document.keys.Nodup)
    (reordered : Reordered (.object document) (.object others)) {key : String}
    {value : String} (held : strField document key = some value) :
    strField others key = some value := by
  obtain ⟨found, found_held, text⟩ := Option.bind_eq_some_iff.mp held
  obtain ⟨other, other_held, alike⟩ := reordered.get? nodup found_held
  cases alike <;> simp [Json.asStr] at text
  simp [strField, other_held, Json.asStr, text]

theorem objectField_reordered_back (nodup : document.keys.Nodup)
    (reordered : Reordered (.object document) (.object others)) {key : String}
    {found : Members} (held : objectField others key = some found) :
    ∃ entries, objectField document key = some entries
      ∧ Reordered (.object entries) (.object found) := by
  obtain ⟨value, value_held, alike⟩ :=
    reordered.get?_back nodup ((objectField_iff others key found).mp held)
  cases alike with
  | object members same =>
      exact ⟨_, (objectField_iff document key _).mpr value_held,
        .object members same⟩

theorem Shaped.reordered (shaped : Shaped document)
    (wellFormed : (Json.object document).WellFormed)
    (reordered : Reordered (.object document) (.object others)) :
    Shaped others := by
  have nodup := wellFormed.ordered.nodup
  constructor
  · obtain ⟨version, held⟩ := shaped.version
    exact ⟨version, numberField_reordered nodup reordered held⟩
  · obtain ⟨name, held⟩ := shaped.namespaceName
    exact ⟨name, strField_reordered nodup reordered held⟩
  · intro key within
    obtain ⟨entries, held⟩ := shaped.sections key within
    obtain ⟨found, found_held, -⟩ := objectField_reordered reordered nodup held
    exact ⟨found, found_held⟩
  · intro key within found found_held
    obtain ⟨entries, held, alike⟩ :=
      objectField_reordered_back nodup reordered found_held
    have entries_wellFormed :=
      wellFormed.member ((objectField_iff _ _ _).mp held)
    exact (shaped.listed key within entries held).reordered
      entries_wellFormed.ordered.nodup alike
  · obtain ⟨collaboration, entities, version, held, version_held, entities_held,
      listed⟩ := shaped.collaboration
    have collaboration_wellFormed :=
      wellFormed.member ((objectField_iff _ _ _).mp held)
    have collaboration_nodup := collaboration_wellFormed.ordered.nodup
    have entities_wellFormed := collaboration_wellFormed.member
      ((objectField_iff _ _ _).mp entities_held)
    obtain ⟨found, found_held, alike⟩ := objectField_reordered reordered nodup held
    obtain ⟨others, others_held, others_alike⟩ :=
      objectField_reordered alike collaboration_nodup entities_held
    refine ⟨found, others, version, found_held,
      numberField_reordered collaboration_nodup alike version_held, others_held,
      fun name other other_held => ?_⟩
    obtain ⟨value, value_held, value_alike⟩ :=
      others_alike.get?_back entities_wellFormed.ordered.nodup other_held
    exact (listed name value value_held).reordered
      (entities_wellFormed.member value_held) value_alike

theorem wellFormed_sectionOf (wellFormed : (Json.object document).WellFormed)
    (key : String) : (Json.object (sectionOf document key)).WellFormed := by
  unfold sectionOf
  cases held : objectField document key with
  | none => exact ⟨Members.ordered_nil, trivial⟩
  | some entries => exact wellFormed.member ((objectField_iff _ _ _).mp held)

theorem reordered_sectionOf (wellFormed : (Json.object document).WellFormed)
    (reordered : Reordered (.object document) (.object others)) (key : String) :
    Reordered (.object (sectionOf document key))
      (.object (sectionOf others key)) := by
  have nodup := wellFormed.ordered.nodup
  unfold sectionOf
  cases held : objectField document key with
  | some entries =>
      obtain ⟨found, found_held, alike⟩ :=
        objectField_reordered reordered nodup held
      rw [found_held]
      exact alike
  | none =>
      cases found_held : objectField others key with
      | none => exact .refl _
      | some found =>
          obtain ⟨entries, entries_held, -⟩ :=
            objectField_reordered_back nodup reordered found_held
          simp [held] at entries_held

theorem Shaped.listed_sectionOf (shaped : Shaped document) {key : String}
    (within : key ∈
      ["entities", "projections", "mutations", "commands", "$defs"]) :
    Listed "name" (sectionOf document key) := by
  unfold sectionOf
  cases held : objectField document key with
  | none => intro name value found; simp [Members.get?] at found
  | some entries => exact shaped.listed key within entries held

theorem Shaped.listed_collaborative (shaped : Shaped document) (name : String)
    (value : Json) (held : (collaborative document).get? name = some value) :
    ListedEntity value := by
  obtain ⟨collaboration, entities, version, collaboration_held, -, entities_held,
    listed⟩ := shaped.collaboration
  simp only [collaborative, sectionOf, collaboration_held, entities_held,
    Option.getD_some] at held
  exact listed name value held

/-- A collaborative entity's entry. -/
def entityItem (collator : Collator) (name : String) (value : Json) : Json :=
  (normalizedEntity collator name value).getD .null

theorem mapM_normalizedEntity (entities : Members)
    (listed : ∀ member ∈ entities, ListedEntity member.2) :
    (entities.mapM fun (name, entity) => normalizedEntity collator name entity)
      = some (entities.map fun member =>
        entityItem collator member.1 member.2) := by
  induction entities with
  | nil => rfl
  | cons member rest inductionHypothesis =>
      obtain ⟨name, value⟩ := member
      obtain ⟨members, fields, rfl, absent, held, paths⟩ :=
        listed (name, value) List.mem_cons_self
      have later := inductionHypothesis fun member within =>
        listed member (List.mem_cons_of_mem _ within)
      rw [List.mapM_cons, later]
      simp [normalizedEntity_eq name held, entityItem]

/-- The sections of a definition and their names in the normalised one. -/
def namedSections : List (String × String) :=
  [("entities", "entities"), ("projections", "projections"),
    ("mutations", "mutations"), ("commands", "commands"),
    ("$defs", "definitions")]

/-- The normalised definition of a shaped one. -/
theorem normalizedDocument_eq (shaped : Shaped document)
    (wellFormed : (Json.object document).WellFormed) :
    ∃ version name collaborationVersion,
      numberField document "version" = some version
        ∧ strField document "namespace" = some name
        ∧ numberField (sectionOf document "collaboration") "version"
          = some collaborationVersion
        ∧ normalizedDocument collator document
          = some (deepSort collator (.object (Members.ofMembers
            [("version", .number version),
              ("namespace", .string name),
              ("entities", namedEntries collator "name"
                (sectionOf document "entities")),
              ("projections", namedEntries collator "name"
                (sectionOf document "projections")),
              ("mutations", namedEntries collator "name"
                (sectionOf document "mutations")),
              ("commands", namedEntries collator "name"
                (sectionOf document "commands")),
              ("collaboration", .object (Members.ofMembers
                [("version", .number collaborationVersion),
                  ("entities", listing collator (entityItem collator)
                    (collaborative document))])),
              ("definitions", namedEntries collator "name"
                (sectionOf document "$defs"))]))) := by
  obtain ⟨version, version_held⟩ := shaped.version
  obtain ⟨name, name_held⟩ := shaped.namespaceName
  obtain ⟨collaboration, entities, collaborationVersion, collaboration_held,
    collaboration_version, entities_held, listed⟩ := shaped.collaboration
  obtain ⟨own, own_held⟩ := shaped.sections "entities" (by simp)
  obtain ⟨projections, projections_held⟩ := shaped.sections "projections" (by simp)
  obtain ⟨mutations, mutations_held⟩ := shaped.sections "mutations" (by simp)
  obtain ⟨definitions, definitions_held⟩ := shaped.sections "$defs" (by simp)
  have collaboration_wellFormed :=
    wellFormed.member ((objectField_iff _ _ _).mp collaboration_held)
  have entities_wellFormed := collaboration_wellFormed.member
    ((objectField_iff _ _ _).mp entities_held)
  have items := @mapM_normalizedEntity collator
    (sortedEntries collator entities) fun member within =>
      listed member.1 member.2 ((Members.get?_eq_some_iff
        entities_wellFormed.ordered.nodup _ _).mpr
        ((sortedEntries_perm collator entities).mem_iff.mp within))
  refine ⟨version, name, collaborationVersion, version_held, name_held, ?_, ?_⟩
  · simp [sectionOf, collaboration_held, collaboration_version]
  · simp only [normalizedDocument, collaboration_held, entities_held, items,
      version_held, name_held, own_held, projections_held, mutations_held,
      definitions_held, collaboration_version, sectionOf, collaborative,
      Option.getD_some, Option.bind_eq_bind, Option.bind_some]
    rfl

theorem entityItem_eq {members fields : Members} (name : String)
    (held : objectField members "fields" = some fields) :
    entityItem collator name (.object members)
      = deepSort collator
        (.object (entityMembers collator name members fields)) := by
  rw [entityItem, normalizedEntity_eq name held]
  rfl

/-- Steady collaborative entities are one list however they are ordered. -/
theorem listing_entities_eq {entities found : Members}
    (steady : (Json.object entities).Steady collator)
    (wellFormed : (Json.object entities).WellFormed)
    (found_wellFormed : (Json.object found).WellFormed)
    (reordered : Reordered (.object entities) (.object found))
    (listed : ∀ name value, entities.get? name = some value → ListedEntity value) :
    listing collator (entityItem collator) entities
      = listing collator (entityItem collator) found := by
  have nodup := wellFormed.ordered.nodup
  refine listing_eq _ steady.untied wellFormed.ordered found_wellFormed.ordered
    reordered.keys fun name value other held other_held => ?_
  obtain ⟨there, there_held, alike⟩ := reordered.get? nodup held
  rw [other_held, Option.some.injEq] at there_held
  subst there_held
  obtain ⟨members, fields, rfl, absent, fields_held, paths⟩ :=
    listed name value held
  obtain ⟨others, rfl, alike⟩ := alike.asObject rfl
  have member_wellFormed := wellFormed.member held
  obtain ⟨other_fields, other_fields_held, -⟩ := objectField_reordered alike
    member_wellFormed.ordered.nodup fields_held
  rw [entityItem_eq name fields_held, entityItem_eq name other_fields_held]
  exact deepSort_entity_eq (steady.member nodup held) member_wellFormed
    (found_wellFormed.member other_held) alike absent fields_held
    other_fields_held paths name

/-- Collaborative entities that are not steady are told apart. -/
theorem exists_listing_entities_apart {entities : Members}
    (wellFormed : (Json.object entities).WellFormed)
    (unsteady : ¬(Json.object entities).Steady collator)
    (listed : ∀ name value, entities.get? name = some value → ListedEntity value) :
    ∃ first second, (Json.object first).WellFormed
      ∧ (Json.object second).WellFormed
      ∧ Reordered (.object entities) (.object first)
      ∧ Reordered (.object entities) (.object second)
      ∧ (listing collator (entityItem collator) first).unnumbered
        ≠ (listing collator (entityItem collator) second).unnumbered := by
  refine exists_listing_apart (entityItem collator) "name" wellFormed unsteady
    (fun name value held => ?_) (fun others others_wellFormed reordered name other
      held => ?_) (fun name members held unsteady => ?_)
  · obtain ⟨members, -, same, -⟩ := listed name value held
    exact ⟨members, same⟩
  · obtain ⟨value, value_held, alike⟩ :=
      reordered.get?_back wellFormed.ordered.nodup held
    obtain ⟨members, fields, rfl, absent, fields_held, -⟩ :=
      (listed name value value_held).reordered (wellFormed.member value_held) alike
    rw [entityItem_eq name fields_held,
      get?_deepSort_object (ordered_entityMembers name members fields),
      get?_entityMembers (others_wellFormed.member held).ordered absent,
      if_neg (by decide), if_pos rfl]
    rfl
  · obtain ⟨_, fields, same, absent, fields_held, paths⟩ := listed name _ held
    obtain rfl := Json.object.inj same
    obtain ⟨first, second, first_wellFormed, second_wellFormed, first_reordered,
      second_reordered, first_fields, second_fields, first_held, second_held,
      apart⟩ := exists_entity_apart (wellFormed.member held) unsteady absent
        fields_held paths name
    refine ⟨first, second, first_wellFormed, second_wellFormed, first_reordered,
      second_reordered, ?_⟩
    rw [entityItem_eq name first_held, entityItem_eq name second_held]
    exact apart.deepSort_ne (ordered_entityMembers name _ _).nodup
      (ordered_entityMembers name _ _).nodup

theorem deepSort_listing_entities {entities : Members}
    (wellFormed : (Json.object entities).WellFormed)
    (listed : ∀ name value, entities.get? name = some value → ListedEntity value) :
    deepSort collator (listing collator (entityItem collator) entities)
      = listing collator (entityItem collator) entities := by
  rw [listing, deepSort, deepSortItems_eq_map, List.map_map]
  refine congrArg Json.array (List.map_congr_left ?_)
  rintro ⟨name, value⟩ within
  have held := (Members.get?_eq_some_iff wellFormed.ordered.nodup name value).mpr
    ((sortedEntries_perm collator entities).mem_iff.mp within)
  obtain ⟨members, fields, rfl, absent, fields_held, paths⟩ :=
    listed name value held
  simp only [Function.comp_apply, entityItem_eq name fields_held]
  exact deepSort_deepSort _ (wellFormed_entityMembers (wellFormed.member held)
    absent fields_held paths name)

/-- What the normalised definition holds under a section's name. -/
theorem get?_normalizedDocument (shaped : Shaped document)
    (wellFormed : (Json.object document).WellFormed) :
    ∃ normalized, normalizedDocument collator document = some normalized
      ∧ (∀ names ∈ namedSections, normalized.get? names.2
          = some (namedEntries collator "name" (sectionOf document names.1)))
      ∧ (normalized.get? "collaboration").bind (Json.get? · "entities")
          = some (listing collator (entityItem collator)
            (collaborative document)) := by
  obtain ⟨version, name, collaborationVersion, -, -, -, normalized⟩ :=
    @normalizedDocument_eq collator document shaped wellFormed
  refine ⟨_, normalized, ?_, ?_⟩
  · rintro ⟨key, output⟩ within
    have listed : Listed "name" (sectionOf document key) := by
      refine shaped.listed_sectionOf ?_
      revert within
      simp [namedSections]
      tauto
    have sorted := @deepSort_namedEntries collator "name" _
      (wellFormed_sectionOf wellFormed key) listed
    rw [get?_deepSort_object (Members.ordered_ofMembers _),
      Members.get?_ofMembers (by simp)]
    simp only [namedSections, List.mem_cons, Prod.mk.injEq, List.not_mem_nil,
      or_false] at within
    rcases within with ⟨rfl, rfl⟩ | ⟨rfl, rfl⟩ | ⟨rfl, rfl⟩ | ⟨rfl, rfl⟩
      | ⟨rfl, rfl⟩ <;> simp [Members.get?_cons, sorted]
  · have collaboration_wellFormed :
        (Json.object (collaborative document)).WellFormed :=
      wellFormed_sectionOf (wellFormed_sectionOf wellFormed _) _
    have sorted := @deepSort_listing_entities collator _
      collaboration_wellFormed shaped.listed_collaborative
    rw [get?_deepSort_object (Members.ordered_ofMembers _),
      Members.get?_ofMembers (by simp)]
    simp only [Members.get?_cons]
    simp
    rw [get?_deepSort_object (Members.ordered_ofMembers _),
      Members.get?_ofMembers (by simp)]
    simp [Members.get?_cons, sorted]

/-- Settled definitions that reorder each other come to one document. -/
theorem normalizedDocument_eq_of_reordered (settled : Settled collator document)
    (shaped : Shaped document) (wellFormed : (Json.object document).WellFormed)
    (others_wellFormed : (Json.object others).WellFormed)
    (reordered : Reordered (.object document) (.object others)) :
    normalizedDocument collator others = normalizedDocument collator document := by
  have others_shaped := shaped.reordered wellFormed reordered
  have nodup := wellFormed.ordered.nodup
  obtain ⟨version, name, collaborationVersion, version_held, name_held,
    collaboration_version, normalized⟩ :=
    @normalizedDocument_eq collator document shaped wellFormed
  obtain ⟨other_version, other_name, other_collaboration, other_version_held,
    other_name_held, other_collaboration_held, other_normalized⟩ :=
    @normalizedDocument_eq collator others others_shaped others_wellFormed
  have sections : ∀ key ∈
      ["entities", "projections", "mutations", "commands", "$defs"],
      namedEntries collator "name" (sectionOf document key)
        = namedEntries collator "name" (sectionOf others key) :=
    fun key within => namedEntries_eq (settled.1 key within)
      (wellFormed_sectionOf wellFormed key)
      (wellFormed_sectionOf others_wellFormed key)
      (reordered_sectionOf wellFormed reordered key)
      (shaped.listed_sectionOf within) (by decide)
  have collaboration_wellFormed := wellFormed_sectionOf wellFormed "collaboration"
  have collaboration_alike :=
    reordered_sectionOf wellFormed reordered "collaboration"
  have entities := listing_entities_eq settled.2
    (wellFormed_sectionOf collaboration_wellFormed "entities")
    (wellFormed_sectionOf
      (wellFormed_sectionOf others_wellFormed "collaboration") "entities")
    (reordered_sectionOf collaboration_wellFormed collaboration_alike "entities")
    shaped.listed_collaborative
  obtain rfl := Option.some.inj ((numberField_reordered nodup reordered
    version_held).symm.trans other_version_held)
  obtain rfl := Option.some.inj ((strField_reordered nodup reordered
    name_held).symm.trans other_name_held)
  obtain rfl := Option.some.inj ((numberField_reordered
    collaboration_wellFormed.ordered.nodup collaboration_alike
    collaboration_version).symm.trans other_collaboration_held)
  rw [normalized, other_normalized, sections "entities" (by simp),
    sections "projections" (by simp), sections "mutations" (by simp),
    sections "commands" (by simp), sections "$defs" (by simp)]
  unfold collaborative at entities ⊢
  rw [entities]

/-- Reorderings of one order-independent definition come to one document. -/
theorem OrderIndependent.unnumbered_eq {definition first second : Definition}
    (independent : OrderIndependent collator scientific definition)
    (first_reordered :
      Reordered (.object definition.document) (.object first.document))
    (second_reordered :
      Reordered (.object definition.document) (.object second.document))
    {one other : Json}
    (one_normalized : normalizedDocument collator first.document = some one)
    (other_normalized : normalizedDocument collator second.document = some other) :
    one.unnumbered = other.unnumbered := by
  have texts := (independent first first_reordered).trans
    (independent second second_reordered).symm
  rw [renderNormalizedDefinition, renderNormalizedDefinition, one_normalized,
    other_normalized, Option.map_some, Option.map_some, Option.some.injEq] at texts
  exact unnumbered_eq_of_stringifyPretty scientific
    (List.append_cancel_right texts)

theorem exists_split_section {entries : Members} {key : String}
    (ordered : document.Ordered) (held : objectField document key = some entries) :
    ∃ earlier later, document = earlier ++ (key, .object entries) :: later :=
  List.append_of_mem ((Members.get?_eq_some_iff ordered.nodup _ _).mp
    ((objectField_iff document key entries).mp held))

theorem sectionOf_replace {earlier later entries : Members} {key : String}
    (wellFormed :
      (Json.object (earlier ++ (key, .object entries) :: later)).WellFormed) :
    sectionOf (earlier ++ (key, .object entries) :: later) key = entries := by
  rw [sectionOf, (objectField_iff _ _ entries).mpr
    (get?_replace wellFormed.ordered.nodup)]
  rfl

/-- A section of a definition may be reordered. -/
theorem exists_reordered_section (definition : Definition) {key : String}
    {entries found : Members}
    (held : objectField definition.document key = some entries)
    (found_wellFormed : (Json.object found).WellFormed)
    (alike : Reordered (.object entries) (.object found)) :
    ∃ other : Definition,
      Reordered (.object definition.document) (.object other.document)
        ∧ sectionOf other.document key = found := by
  obtain ⟨document, wellFormed, shaped⟩ := definition
  obtain ⟨earlier, later, rfl⟩ := exists_split_section wellFormed.ordered held
  have replaced := wellFormed.replace found_wellFormed
  exact ⟨⟨_, replaced, shaped.reordered wellFormed (reordered_replace alike)⟩,
    reordered_replace alike, sectionOf_replace replaced⟩

/-- The collaborative entities of a definition may be reordered. -/
theorem exists_reordered_collaborative (definition : Definition)
    {found : Members} (found_wellFormed : (Json.object found).WellFormed)
    (alike : Reordered (.object (collaborative definition.document))
      (.object found)) :
    ∃ other : Definition,
      Reordered (.object definition.document) (.object other.document)
        ∧ collaborative other.document = found := by
  obtain ⟨collaboration, entities, -, held, -, entities_held, -⟩ :=
    definition.shaped.collaboration
  have collaboration_wellFormed :=
    definition.wellFormed.member ((objectField_iff _ _ _).mp held)
  have same : collaborative definition.document = entities := by
    simp [collaborative, sectionOf, held, entities_held]
  rw [same] at alike
  obtain ⟨earlier, later, rfl⟩ :=
    exists_split_section collaboration_wellFormed.ordered entities_held
  have replaced := collaboration_wellFormed.replace found_wellFormed
  obtain ⟨other, reordered, held_now⟩ := exists_reordered_section definition held
    replaced (reordered_replace alike)
  refine ⟨other, reordered, ?_⟩
  rw [collaborative, held_now, sectionOf_replace replaced]

/-- An empty section is steady. -/
theorem objectField_of_unsteady {key : String}
    (unsteady : ¬(Json.object (sectionOf document key)).Steady collator) :
    objectField document key = some (sectionOf document key) := by
  cases held : objectField document key with
  | some entries => simp [sectionOf, held]
  | none =>
      have empty : sectionOf document key = [] := by simp [sectionOf, held]
      rw [empty, Json.Steady] at unsteady
      exact absurd ⟨fun key within => by simp at within, trivial⟩ unsteady

theorem OrderIndependent.section_steady {definition : Definition}
    (independent : OrderIndependent collator scientific definition)
    {names : String × String} (within : names ∈ namedSections) :
    (Json.object (sectionOf definition.document names.1)).Steady collator := by
  by_contra unsteady
  have listed : Listed "name" (sectionOf definition.document names.1) := by
    refine definition.shaped.listed_sectionOf ?_
    revert within
    simp only [namedSections, List.mem_cons]
    rintro (rfl | rfl | rfl | rfl | rfl | impossible)
    any_goals simp
    simp at impossible
  obtain ⟨first, second, first_wellFormed, second_wellFormed, first_reordered,
    second_reordered, different⟩ := exists_namedEntries_apart
      (wellFormed_sectionOf definition.wellFormed names.1) unsteady listed
      (by decide)
  have held := objectField_of_unsteady unsteady
  obtain ⟨one, one_reordered, one_section⟩ :=
    exists_reordered_section definition held first_wellFormed first_reordered
  obtain ⟨other, other_reordered, other_section⟩ :=
    exists_reordered_section definition held second_wellFormed second_reordered
  obtain ⟨normalized, normalized_eq, sections, -⟩ :=
    @get?_normalizedDocument collator one.document one.shaped one.wellFormed
  obtain ⟨other_normalized, other_eq, other_sections, -⟩ :=
    @get?_normalizedDocument collator other.document other.shaped
      other.wellFormed
  have alike := independent.unnumbered_eq one_reordered other_reordered
    normalized_eq other_eq
  have values := congrArg (Json.get? · names.2) alike
  simp only [Json.get?_unnumbered, sections names within,
    other_sections names within, Option.map_some, Option.some.injEq, one_section,
    other_section] at values
  exact different values

theorem OrderIndependent.collaborative_steady {definition : Definition}
    (independent : OrderIndependent collator scientific definition) :
    (Json.object (collaborative definition.document)).Steady collator := by
  by_contra unsteady
  obtain ⟨first, second, first_wellFormed, second_wellFormed, first_reordered,
    second_reordered, different⟩ := exists_listing_entities_apart
      (wellFormed_sectionOf
        (wellFormed_sectionOf definition.wellFormed "collaboration") "entities")
      unsteady definition.shaped.listed_collaborative
  obtain ⟨one, one_reordered, one_entities⟩ :=
    exists_reordered_collaborative definition first_wellFormed first_reordered
  obtain ⟨other, other_reordered, other_entities⟩ :=
    exists_reordered_collaborative definition second_wellFormed second_reordered
  obtain ⟨normalized, normalized_eq, -, entities⟩ :=
    @get?_normalizedDocument collator one.document one.shaped one.wellFormed
  obtain ⟨other_normalized, other_eq, -, listed⟩ :=
    @get?_normalizedDocument collator other.document other.shaped
      other.wellFormed
  have alike := independent.unnumbered_eq one_reordered other_reordered
    normalized_eq other_eq
  have read : ∀ value : Json,
      (value.unnumbered.get? "collaboration").bind (Json.get? · "entities")
        = ((value.get? "collaboration").bind (Json.get? · "entities")).map
          Json.unnumbered := by
    intro value
    rw [Json.get?_unnumbered]
    cases value.get? "collaboration" with
    | none => rfl
    | some collaboration => exact Json.get?_unnumbered collaboration "entities"
  have values := congrArg
    (fun value => (Json.get? value "collaboration").bind (Json.get? · "entities"))
    alike
  simp only [read, entities, listed, Option.map_some, Option.some.injEq,
    one_entities, other_entities] at values
  exact different values

end Documents

/--
A definition's text does not depend on the order of its objects' members
exactly when no object of its named sections holds two different keys, neither
an array index, that collate equal.
-/
theorem orderIndependent_iff (definition : Definition) :
    OrderIndependent collator scientific definition
      ↔ Settled collator definition.document := by
  constructor
  · intro independent
    refine ⟨fun key within => ?_, independent.collaborative_steady⟩
    have named : ∃ output, (key, output) ∈ namedSections := by
      revert within
      simp only [List.mem_cons, List.not_mem_nil, or_false, namedSections]
      rintro (rfl | rfl | rfl | rfl | rfl) <;> simp
    obtain ⟨output, within⟩ := named
    exact independent.section_steady within
  · intro settled other reordered
    rw [renderNormalizedDefinition, renderNormalizedDefinition,
      normalizedDocument_eq_of_reordered settled definition.shaped
        definition.wellFormed other.wellFormed reordered]

/-! ## A definition whose text depends on member order -/

section Tied

/-- A collator that passes over the characters a locale's order ignores. -/
def ignoringNull : Collator where
  compare left right :=
    compare (left.toList.filter (· ≠ '\x00')) (right.toList.filter (· ≠ '\x00'))
  oriented _ _ := Std.OrientedCmp.eq_swap
  transitive _ _ _ := Std.TransCmp.isLE_trans

def reference (name : String) : Json :=
  .object [("$ref", .string name)]

def described (fields : Members) (description : String) : Json :=
  .object (fields ++ [("description", .string description)])

def closedObject (required : List String) (properties : Members) : Members :=
  [("type", .string "object"), ("additionalProperties", .bool false),
    ("required", .array (required.map .string)), ("properties", .object properties)]

/--
A definition with one collaborative entity, its authoring state declared, and
one record whose default holds `labels`.
-/
def labelledDefinition (labels : Members) : Members :=
  [("version", .number 1), ("namespace", .string "notes"),
    ("entities", .object [("Note", .object
      [("id", .string "id"), ("schema", reference "#/$defs/Note"),
        ("revision", .object [("kind", .string "replica")]),
        ("authoring", .object [("kind", .string "collaborative"),
          ("planningMutations", .array [])])])]),
    ("projections", .object [("noteState", .object
      [("description", .string
          "The accepted state of one Note document, for keeping a replica of it."),
        ("params", reference "#/$defs/NoteAuthoringParams"),
        ("snapshot", reference "#/$defs/AuthoringState"),
        ("patch", reference "#/$defs/AuthoringStatePatch"),
        ("dependsOn", .array [.string "Note"]),
        ("materialization", .object [("strategy", .string "replaceOrRemove"),
          ("snapshotMode", .string "field"), ("snapshotField", .string "state"),
          ("removeMode", .string "nullSnapshot")])])]),
    ("mutations", .object [("noteImport", .object
      [("description", .string "Imports a note."),
        ("params", reference "#/$defs/Note"),
        ("result", reference "#/$defs/Labels"),
        ("touches", .array [.string "Note"])])]),
    ("collaboration", .object [("version", .number 1),
      ("entities", .object [("Note", .object
        [("schemaVersion", .number 1),
          ("authoringState", .object [("projection", .string "noteState"),
            ("importMutation", .string "noteImport")]),
          ("rootContainer", .string "note"),
          ("fields", .object [("id", .object
            [("storage", .object [("kind", .string "derivedIdentity")]),
              ("value", .object [("codec", .string "identity")]),
              ("required", .bool true),
              ("conflict", .string "immutable")])])])])]),
    ("$defs", .object
      [("Note", .object
          (closedObject ["id"] [("id", .object [("type", .string "string")])])),
        ("Labels", .object [("type", .string "object"),
          ("additionalProperties", .object [("type", .string "number")]),
          ("default", .object labels)]),
        ("AuthoringState", .object (closedObject
          ["schema_version", "accepted_frontier_base64", "update_base64", "etag",
            "exchange_modes", "peer_block", "replaces_held"]
          [("schema_version", described [("type", .string "integer"),
              ("minimum", .number 0), ("maximum", .number 4294967295)]
              "The layout version the document's operations are written in."),
            ("accepted_frontier_base64", described [("type", .string "string")]
              "The frontier of the accepted state this delivery leaves its client holding."),
            ("update_base64", described [("type", .string "string")]
              "The accepted operations this delivery adds: every one in a snapshot, and in a patch those after the frontier its client held."),
            ("etag", described [("type", .string "string")]
              "The accepted state's etag."),
            ("exchange_modes", described [("type", .string "array"),
              ("items", reference "#/$defs/CollaborationExchangeMode")]
              "How the store accepts an import of this document."),
            ("peer_block", reference "#/$defs/AuthoringPeerBlock"),
            ("replaces_held", described [("type", .string "boolean")]
              "Whether the client replaces what it holds with this delivery, because what it named holding is not of this document's history.")])),
        ("AuthoringStatePatch", .object (closedObject ["kind"]
          [("kind", .object [("type", .string "string"),
              ("enum", .array [.string "replace", .string "remove"])]),
            ("state", reference "#/$defs/AuthoringState")])),
        ("AuthoringPeerBlock", .object
          [("type", .string "object"), ("additionalProperties", .bool false),
            ("required", .array
              [.string "nonce", .string "base", .string "index_bits"]),
            ("description", .string
              "A block of peers allocated to the subscriber: every peer whose bits above the low index_bits are base's. An import names the block by its nonce."),
            ("properties", .object
              [("nonce", .object [("type", .string "string")]),
                ("base", described [("type", .string "string")]
                  "The block's first peer, in decimal."),
                ("index_bits", .object [("type", .string "integer"),
                  ("minimum", .number 0), ("maximum", .number 4294967295)])])]),
        ("CollaborationExchangeMode", described [("type", .string "string"),
          ("enum", .array [.string "incremental", .string "bootstrap"])]
          "Whether an import creates a document (bootstrap) or edits one (incremental)."),
        ("NoteAuthoringParams", .object
          (closedObject ["id"] [("id", .object [("type", .string "string")])]))])]

/-- Entries are checked one by one. -/
theorem listed_of_all {key : String} {entries : Members}
    (checked : entries.all (fun member => member.2.asObject.any fun members =>
      !members.containsKey key) = true) : Listed key entries := by
  intro name value held
  have own := List.all_eq_true.mp checked _ (Members.mem_of_get? held)
  cases value <;> simp [Json.asObject] at own
  exact ⟨_, rfl, by simpa [← Members.containsKey_iff] using own⟩

theorem shaped_labelledDefinition (labels : Members) :
    Shaped (labelledDefinition labels) where
  version := ⟨1, rfl⟩
  namespaceName := ⟨"notes", rfl⟩
  sections := by
    intro key within
    simp only [List.mem_cons, List.not_mem_nil, or_false] at within
    rcases within with rfl | rfl | rfl | rfl <;> exact ⟨_, rfl⟩
  listed := by
    intro key within entries held
    simp only [List.mem_cons, List.not_mem_nil, or_false] at within
    rcases within with rfl | rfl | rfl | rfl | rfl
    · cases held
      exact listed_of_all rfl
    · cases held
      exact listed_of_all rfl
    · cases held
      exact listed_of_all rfl
    · cases held
    · cases held
      exact listed_of_all rfl
  collaboration := by
    refine ⟨_, _, 1, rfl, rfl, rfl, ?_⟩
    intro name value held
    obtain ⟨rfl, rfl⟩ := Prod.mk.inj
      (List.mem_singleton.mp (Members.mem_of_get? held))
    exact ⟨_, _, rfl, by decide, rfl, listed_of_all rfl⟩

/-- A definition whose record has a default of two keys that collate equal. -/
def labelled : Definition where
  document := labelledDefinition [("ab", .number 1), ("a\x00b", .number 2)]
  wellFormed := by decide +kernel
  shaped := shaped_labelledDefinition _

/-- Natural numbers that end in no zero, as the platform spells them. -/
def naturals : Scientific where
  digits value := Nat.toDigits 10 value.toRat.floor.toNat
  exponent value := (Nat.toDigits 10 value.toRat.floor.toNat).length - 1
  nonempty _ := Nat.toDigits_ne_nil
  decimal _ _ member := Nat.isDigit_of_mem_toDigits (by decide) (by decide) member

/-- Written the other way round, the default is normalised to another text. -/
theorem tied_default_depends_on_order :
    ¬OrderIndependent ignoringNull naturals labelled := by
  intro independent
  have definitions := @OrderIndependent.section_steady _ _ _ independent
    ("$defs", "definitions") (by simp [namedSections])
  have definitions_wellFormed := wellFormed_sectionOf labelled.wellFormed "$defs"
  have record := @Json.Steady.member _ _ definitions
    definitions_wellFormed.ordered.nodup "Labels" _ rfl
  have record_wellFormed := @Json.WellFormed.member _ definitions_wellFormed
    "Labels" _ rfl
  have default := @Json.Steady.member _ _ record
    record_wellFormed.ordered.nodup "default" _ rfl
  have same := default.untied "ab" (by decide) "a\x00b" (by decide) (by decide)
    (by decide) (by decide)
  exact absurd same (by decide)

end Tied

end Clerkenwell.Codegen
