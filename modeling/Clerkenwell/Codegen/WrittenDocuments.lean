import Clerkenwell.Codegen.CheckedParts

/-!
# Written documents

What a schema document has: its root as JSON Schema, and beside it the entries
that the root reaches, each as JSON Schema under its name.
-/

namespace Clerkenwell.Codegen

open Clerkenwell.Foundation Running JsonSchema

variable {definition : Sections} {reached : List String} {entries : Members}

/-! ## Entries -/

section Entries

/-- The entries that are reached are written under their names. -/
theorem reachedDefs_ok (written : reachedDefs definition reached = .ok entries)
    (nodup : definition.defs.keys.Nodup) :
    entries.keys.Nodup
      ∧ (∀ name, name ∈ entries.keys ↔
        name ∈ reached ∧ name ∈ definition.defs.keys)
      ∧ ∀ name value, entries.get? name = some value →
        ∃ schema converted : Members, definition.def? name = some schema
          ∧ jsonSchema schema = .ok converted ∧ value = .object converted := by
  rcases except_bind_ok written with ⟨all, gathered, written⟩
  have all_named : List.Forall₂ (fun (member : String × Json)
      (pair : String × Members) =>
        pair.1 = member.1 ∧ member.2 = .object pair.2) definition.defs all := by
    apply (forall₂_of_mapM_ok gathered).imp
    rintro ⟨name, value⟩ pair one
    rcases except_bind_ok one with ⟨schema, object, built⟩
    obtain rfl := Except.ok.inj built
    refine ⟨rfl, ?_⟩
    cases value with
    | object members => rw [Except.ok.inj object]
    | _ => cases object
  have kept_named : List.Forall₂ (fun (pair : String × Members)
      (entry : String × Json) => entry.1 = pair.1 ∧ ∃ converted,
        jsonSchema pair.2 = .ok converted ∧ entry.2 = .object converted)
      (all.filter fun entry => reached.contains entry.1) entries := by
    apply (forall₂_of_mapM_ok written).imp
    rintro ⟨name, schema⟩ entry one
    rcases except_bind_ok one with ⟨converted, succeeds, built⟩
    obtain rfl := Except.ok.inj built
    exact ⟨rfl, converted, succeeds, rfl⟩
  rcases @named_of_forall₂ Json Members
    (fun value schema => value = .object schema) _ _ all_named
    with ⟨all_names, all_held⟩
  rcases @named_of_forall₂ Members Json (fun schema value => ∃ converted,
      jsonSchema schema = .ok converted ∧ value = .object converted) _ _
      kept_named
    with ⟨kept_names, kept_held⟩
  have all_nodup : (all.map Prod.fst).Nodup := by
    rw [all_names]
    exact nodup
  have keys_eq : entries.keys
      = (all.filter fun entry => reached.contains entry.1).map Prod.fst :=
    kept_names
  have entries_nodup : entries.keys.Nodup := by
    rw [keys_eq]
    exact (List.filter_sublist.map Prod.fst).nodup all_nodup
  refine ⟨entries_nodup, fun name => ?_, fun name value held => ?_⟩
  · have listed : name ∈ definition.defs.keys ↔ name ∈ all.map Prod.fst := by
      rw [all_names]
      rfl
    rw [keys_eq, listed]
    constructor
    · intro within
      rcases List.mem_map.mp within with ⟨entry, among, rfl⟩
      rcases List.mem_filter.mp among with ⟨among, met⟩
      exact ⟨List.contains_iff_mem.mp met, List.mem_map_of_mem among⟩
    · rintro ⟨met, within⟩
      rcases List.mem_map.mp within with ⟨entry, among, rfl⟩
      exact List.mem_map_of_mem
        (List.mem_filter.mpr ⟨among, List.contains_iff_mem.mpr met⟩)
  · rcases kept_held name value (Members.mem_of_get? held)
      with ⟨schema, within, converted, succeeds, object⟩
    rcases all_held name schema (List.mem_filter.mp within).1
      with ⟨json, declared, rfl⟩
    refine ⟨schema, converted, ?_, succeeds, object⟩
    rw [Sections.def?, objectField_eq_some]
    exact (Members.get?_eq_some_iff nodup _ _).mpr declared

theorem reachedDefs_writes
    (objects : ∀ member ∈ definition.defs, ∃ schema, member.2 = .object schema)
    (writes : ∀ name ∈ reached, ∀ schema,
      (name, Json.object schema) ∈ definition.defs →
        ∃ converted, jsonSchema schema = .ok converted) :
    ∃ entries, reachedDefs definition reached = .ok entries := by
  rw [reachedDefs]
  have gathers : ∃ all : List (String × Members),
      (definition.defs.mapM fun member => do
        pure (member.1, ← expect member.2.asObject)) = Except.ok all := by
    apply exists_mapM_ok
    rintro ⟨name, value⟩ within
    rcases objects _ within with ⟨schema, object⟩
    dsimp only at object
    subst object
    exact ⟨(name, schema), rfl⟩
  rcases gathers with ⟨all, gathered⟩
  rw [gathered]
  apply exists_mapM_ok
  rintro ⟨name, schema⟩ within
  rcases List.mem_filter.mp within with ⟨among, met⟩
  rcases exists_of_mem_left (forall₂_of_mapM_ok gathered).flip among
    with ⟨⟨other, value⟩, declared, one⟩
  rcases except_bind_ok one with ⟨members, object, built⟩
  rcases Prod.mk.inj (Except.ok.inj built) with ⟨rfl, rfl⟩
  have same : value = .object members := by
    cases value with
    | object members => rw [Except.ok.inj object]
    | _ => cases object
  subst same
  rcases writes _ (List.contains_iff_mem.mp met) _ declared
    with ⟨converted, succeeds⟩
  dsimp only
  rw [succeeds]
  exact ⟨_, rfl⟩

end Entries

/-! ## Documents -/

section Documents

variable {reference root converted document : Members} {name : String}

/-- What a document includes beside its root. -/
def documentDefs (document : Members) : Members :=
  (objectField document "$defs").getD []

/-- What a schema document is made of. -/
structure DocumentOf (definition : Sections) (root : Members)
    (reached : List String) (entries converted document : Members) : Prop where
  explored : Explored references definition.def? root reached []
  gathered : reachedDefs definition reached = .ok entries
  written : jsonSchema root = .ok converted
  document_eq : document =
    if (Members.ofMembers entries).isEmpty then converted
    else
      Members.insert converted "$defs" (.object (Members.ofMembers entries))

/-- A schema document is made of the root its reference names. -/
theorem documentOf_of_comes
    (named : localReferenceName (reference.get? "$ref") = some name)
    (entry : definition.def? name = some root)
    (comes : Comes (schemaDocument definition reference) (.object document)) :
    ∃ reached entries converted,
      DocumentOf definition root reached entries converted document := by
  rcases comes with ⟨fuel, succeeds⟩
  rw [schemaDocument, named] at succeeds
  rcases (succeeds_bind _ _ _).mp succeeds with ⟨other, expected, succeeds⟩
  rw [succeeds_settled] at expected
  obtain rfl := Except.ok.inj expected
  rcases (succeeds_bind _ _ _).mp succeeds with ⟨target, found, succeeds⟩
  rw [entry, succeeds_settled] at found
  obtain rfl := Except.ok.inj found
  rcases (succeeds_bind _ _ _).mp succeeds with ⟨reached, explores, succeeds⟩
  rcases (succeeds_bind _ _ _).mp succeeds with ⟨entries, gathered, succeeds⟩
  rw [succeeds_settled] at gathered
  rcases (succeeds_bind _ _ _).mp succeeds with ⟨converted, written, succeeds⟩
  rw [succeeds_settled] at written
  have built := (succeeds_pure _ _).mp succeeds
  exact ⟨reached, entries, converted, (Explored.start root).run explores,
    gathered, written, (Json.object.inj built).symm⟩

/-- A document comes where all that its root reaches is found and written. -/
theorem schemaDocument_comes
    (named : localReferenceName (reference.get? "$ref") = some name)
    (entry : definition.def? name = some root)
    (known : ∀ name, Reaches references definition.def? root name →
      (definition.def? name).isSome = true)
    (gathers : ∀ reached,
      (∀ name ∈ reached, Reaches references definition.def? root name) →
        ∃ entries, reachedDefs definition reached = .ok entries)
    (written : jsonSchema root = .ok converted) :
    ∃ document, Comes (schemaDocument definition reference)
      (.object document) := by
  have listed : ∀ name, Reaches references definition.def? root name →
      name ∈ definition.defs.keys ∧ (definition.def? name).isSome = true := by
    intro name reaches
    rcases Option.isSome_iff_exists.mp (known name reaches) with ⟨target, found⟩
    exact ⟨mem_keys_of_def? found, known name reaches⟩
  have enough : 2 * definition.defs.keys.length + [root].length
      < 2 * definition.defs.keys.length + 2 + 2 * ([] : List String).length :=
    Nat.lt_succ_self _
  rcases @explore_succeeds _ _ _ _ Failure.panicked _ _ _ _ _ _
    (Explored.start root) listed _ enough with ⟨reached, explores⟩
  have explored := (Explored.start root).run explores
  rcases gathers reached explored.sound with ⟨entries, gathered⟩
  refine ⟨if (Members.ofMembers entries).isEmpty then converted
    else
      Members.insert converted "$defs" (.object (Members.ofMembers entries)),
    2 * definition.defs.keys.length + 2, ?_⟩
  rw [schemaDocument, named, succeeds_bind]
  refine ⟨name, (succeeds_settled _ _).mpr rfl, ?_⟩
  rw [entry, succeeds_bind]
  refine ⟨root, (succeeds_settled _ _).mpr rfl, ?_⟩
  rw [succeeds_bind]
  refine ⟨reached, explores, ?_⟩
  rw [gathered, succeeds_bind]
  refine ⟨entries, (succeeds_settled _ _).mpr rfl, ?_⟩
  rw [written, succeeds_bind]
  refine ⟨converted, (succeeds_settled _ _).mpr rfl, ?_⟩
  exact (succeeds_pure _ _).mpr rfl

/-- A root has each keyword once and no entries, which beside it are named once. -/
structure Rooted (definition : Sections) (root : Members) : Prop where
  nodup : root.keys.Nodup
  undefined : root.get? "$defs" = none
  distinct : definition.defs.keys.Nodup

variable (made : DocumentOf definition root reached entries converted document)
  (rooted : Rooted definition root)

include made rooted

theorem DocumentOf.converted_defs : converted.get? "$defs" = none :=
  (jsonSchema_ok made.written rooted.nodup).2.1 "$defs" rooted.undefined

theorem DocumentOf.get?_eq {key : String} (other : key ≠ "$defs") :
    document.get? key = converted.get? key := by
  rw [made.document_eq]
  split
  · rfl
  · rw [Members.get?_insert (jsonSchema_ok made.written rooted.nodup).1,
      if_neg other]

theorem DocumentOf.defs_eq :
    documentDefs document = Members.ofMembers entries := by
  rw [documentDefs, made.document_eq, objectField]
  split
  · next empty =>
    rw [made.converted_defs rooted]
    exact (List.isEmpty_iff.mp empty).symm
  · rw [Members.get?_insert (jsonSchema_ok made.written rooted.nodup).1,
      if_pos rfl]
    rfl

theorem DocumentOf.defs_nodup : (documentDefs document).keys.Nodup := by
  rw [made.defs_eq rooted]
  exact (Members.ordered_ofMembers entries).nodup

/-- What is within a document is within its root, or is one of its entries. -/
theorem DocumentOf.within_iff {inner : Json} :
    Within (.object document) inner
      ↔ Within (.object converted) inner
        ∨ ∃ name, (name, inner) ∈ documentDefs document := by
  constructor
  · intro within
    rcases within_iff_at.mp within with ⟨key, value, held, at_key⟩
    by_cases beside : key = "$defs"
    · subst beside
      cases at_key with
      | keyed among => exact absurd among (by decide)
      | listed same => exact absurd same (by decide)
      | @mapped name _ _ _ member =>
          refine Or.inr ⟨name, ?_⟩
          rw [documentDefs, objectField_eq_some.mpr held]
          exact member
    · rw [made.get?_eq rooted beside] at held
      exact Or.inl (within_iff_at.mpr ⟨key, value, held, at_key⟩)
  · rintro (within | ⟨name, member⟩)
    · rcases within_iff_at.mp within with ⟨key, value, held, at_key⟩
      have beside : key ≠ "$defs" := by
        rintro rfl
        rw [made.converted_defs rooted] at held
        cases held
      rw [← made.get?_eq rooted beside] at held
      exact within_iff_at.mpr ⟨key, value, held, at_key⟩
    · rw [documentDefs] at member
      cases declared : objectField document "$defs" with
      | none =>
          rw [declared] at member
          cases member
      | some defs =>
          rw [declared] at member
          exact @Within.mapped _ _ _ _ name (by simp)
            (objectField_eq_some.mp declared) member

/-- A document includes the entries that its root reaches. -/
theorem DocumentOf.mem_keys_iff :
    name ∈ (documentDefs document).keys
      ↔ Reaches references definition.def? root name := by
  rcases reachedDefs_ok made.gathered rooted.distinct
    with ⟨entries_nodup, names, -⟩
  rw [made.defs_eq rooted, Members.mem_keys_ofMembers entries_nodup, names]
  constructor
  · rintro ⟨met, -⟩
    exact made.explored.mem_iff.mp met
  · intro reaches
    have met := made.explored.mem_iff.mpr reaches
    rcases made.explored.closed name met with ⟨target, found, -⟩
    exact ⟨met, mem_keys_of_def? found⟩

/-- What a document includes is written of entries that its root reaches. -/
theorem DocumentOf.get?_defs {inner : Json}
    (held : (documentDefs document).get? name = some inner) :
    ∃ schema result : Members, definition.def? name = some schema
      ∧ Reaches references definition.def? root name
      ∧ jsonSchema schema = .ok result ∧ inner = .object result := by
  have reaches := (made.mem_keys_iff rooted).mp
    (List.mem_map_of_mem (Members.mem_of_get? held))
  rcases reachedDefs_ok made.gathered rooted.distinct
    with ⟨entries_nodup, -, held_of⟩
  rw [made.defs_eq rooted, Members.get?_ofMembers entries_nodup] at held
  rcases held_of name inner held with ⟨schema, result, entry, written, same⟩
  exact ⟨schema, result, entry, reaches, written, same⟩

end Documents

end Clerkenwell.Codegen
