import Clerkenwell.Codegen.References
import Mathlib.Data.Finset.Card
import Mathlib.Data.Set.Finite.Lattice
import Mathlib.Data.Set.Finite.List
import Mathlib.Logic.Relation

/-!
# Comparisons of schemas settle

Comparing two schemas assumes each pair of references it comes to, of which
there are finitely many, and goes into smaller schemas between them.
-/

namespace Clerkenwell.Codegen

open Clerkenwell.Foundation Running

/-! ## The schemas a comparison may come to -/

/-- Whether a schema is a field of another. -/
def FieldOf (outer inner : Members) : Prop :=
  ∃ key, objectField outer key = some inner

theorem finite_fieldOf (outer : Members) : {inner | FieldOf outer inner}.Finite := by
  have within : {inner | FieldOf outer inner}
      ⊆ {inner | inner ∈ outer.filterMap fun member => member.2.asObject} := by
    rintro inner ⟨key, held⟩
    obtain ⟨value, found, isObject⟩ := Option.bind_eq_some_iff.mp held
    exact List.mem_filterMap.mpr
      ⟨(key, value), Members.mem_of_get? found, isObject⟩
  exact (List.finite_toSet _).subset within

/-- A schema has finitely many within it. -/
theorem finite_within (outer : Members) :
    {inner | Relation.ReflTransGen FieldOf outer inner}.Finite := by
  induction size : sizeOf outer using Nat.strong_induction_on
    generalizing outer with
  | _ size inductionHypothesis =>
    have parts : {inner | Relation.ReflTransGen FieldOf outer inner}
        ⊆ {outer} ∪ ⋃ field ∈ {inner | FieldOf outer inner},
            {inner | Relation.ReflTransGen FieldOf field inner} := by
      intro inner reached
      rcases Relation.ReflTransGen.cases_head reached with rfl | ⟨field, step, rest⟩
      · exact Or.inl rfl
      · exact Or.inr (Set.mem_biUnion step rest)
    refine Set.Finite.subset ?_ parts
    refine (Set.finite_singleton outer).union
      ((finite_fieldOf outer).biUnion fun field step => ?_)
    obtain ⟨key, held⟩ := step
    exact inductionHypothesis (sizeOf field)
      (size ▸ sizeOf_objectField_lt held) field rfl

/-- Finitely many schemas, among them the entries and every field of one. -/
structure ClosedSchemas (definition : Sections) (schemas : Set Members) :
    Prop where
  finite : schemas.Finite
  field : ∀ schema ∈ schemas, ∀ inner, FieldOf schema inner → inner ∈ schemas
  entry : ∀ name target, definition.def? name = some target →
    target ∈ schemas

theorem exists_closedSchemas (definition : Sections) (values member : Members) :
    ∃ schemas, ClosedSchemas definition schemas
      ∧ values ∈ schemas ∧ member ∈ schemas := by
  obtain ⟨roots, listed⟩ : ∃ roots : List Members, roots
      = values :: member
        :: definition.defs.filterMap fun entry => entry.2.asObject := ⟨_, rfl⟩
  refine ⟨⋃ root ∈ {root | root ∈ roots},
    {inner | Relation.ReflTransGen FieldOf root inner},
    { finite := ?_, field := ?_, entry := ?_ }, ?_, ?_⟩
  · exact (List.finite_toSet roots).biUnion fun root _ => finite_within root
  · intro schema within inner step
    obtain ⟨root, among, reached⟩ := Set.mem_iUnion₂.mp within
    exact Set.mem_biUnion among (Relation.ReflTransGen.tail reached step)
  · intro name target found
    have among : target ∈ roots := by
      obtain ⟨value, held, isObject⟩ := Option.bind_eq_some_iff.mp found
      rw [listed]
      refine List.mem_cons_of_mem _ (List.mem_cons_of_mem _ ?_)
      exact List.mem_filterMap.mpr
        ⟨(name, value), Members.mem_of_get? held, isObject⟩
    exact Set.mem_biUnion among Relation.ReflTransGen.refl
  · exact Set.mem_biUnion (show values ∈ roots by simp [listed])
      Relation.ReflTransGen.refl
  · exact Set.mem_biUnion (show member ∈ roots by simp [listed])
      Relation.ReflTransGen.refl

/-! ## Comparing two schemas -/

theorem refuses_primitiveUnionTypes (schema : Members) :
    Refuses (primitiveUnionTypes schema) := by
  unfold primitiveUnionTypes
  split
  · dsimp only
    split
    · exact refuses_refuse _
    · exact refuses_ite (fun _ => refuses_ok _) fun _ => refuses_refuse _
  · exact refuses_ok _

theorem refuses_declaredTypes (schema : Members) :
    Refuses (declaredTypes schema) := by
  refine (refuses_primitiveUnionTypes schema).bind fun types _ => ?_
  split <;> exact refuses_pure _

theorem refuses_admitsNode (values member : Members) :
    Refuses (admitsNode values member) := by
  refine (refuses_declaredTypes member).bind fun memberTypes _ => ?_
  split
  · exact refuses_pure _
  · refine (refuses_declaredTypes values).bind fun valuesTypes _ => ?_
    split
    · exact refuses_pure _
    · exact refuses_ite (fun _ => refuses_pure _) fun _ => refuses_pure _

/-- What is left to compare is within what was compared. -/
theorem partsToCompare_within {values member innerValues innerMember : Members}
    {valuesTypes memberTypes : List String}
    (parts : partsToCompare values member valuesTypes memberTypes
      = .inr (innerValues, innerMember)) :
    FieldOf values innerValues ∧ FieldOf member innerMember
      ∧ sizeOf innerValues < sizeOf values := by
  unfold partsToCompare at parts
  split at parts
  · cases parts
  · split at parts
    · split at parts
      · next one other =>
        obtain ⟨rfl, rfl⟩ := Prod.mk.inj (Sum.inr.inj parts)
        exact ⟨⟨_, one⟩, ⟨_, other⟩, sizeOf_objectField_lt one⟩
      · cases parts
    · split at parts
      · next one other =>
        obtain ⟨rfl, rfl⟩ := Prod.mk.inj (Sum.inr.inj parts)
        have values_field := objectField_of_recordValuesSchema one
        exact ⟨⟨_, values_field⟩,
          ⟨_, objectField_of_recordValuesSchema other⟩,
          sizeOf_objectField_lt values_field⟩
      · cases parts
    · cases parts

theorem admitsNode_within {values member innerValues innerMember : Members}
    (compared : admitsNode values member = .ok (.inr (innerValues, innerMember))) :
    FieldOf values innerValues ∧ FieldOf member innerMember
      ∧ sizeOf innerValues < sizeOf values := by
  obtain ⟨memberTypes, -, compared⟩ := except_bind_ok compared
  split at compared
  · cases compared
  · obtain ⟨valuesTypes, -, compared⟩ := except_bind_ok compared
    split at compared
    · cases compared
    · dsimp only at compared
      split at compared
      · exact partsToCompare_within (Except.ok.inj compared)
      · cases compared

section Comparing

variable {scientific : Scientific} {definition : Sections}

/-- A chain of references ends at an entry, or where it starts. -/
theorem dereferenceFrom_within {schemas : Set Members}
    (closed : ClosedSchemas definition schemas) {reached : Option String}
    {fuel : Nat} {schema : Members} {ending : Option String × Members}
    (within : schema ∈ schemas)
    (followed : Succeeds (dereferenceFrom definition reached fuel schema) ending) :
    ending.2 ∈ schemas := by
  induction fuel generalizing reached schema with
  | zero => cases followed
  | succ fuel inductionHypothesis =>
      rw [dereferenceFrom] at followed
      split at followed
      · obtain ⟨name, -, followed⟩ := (succeeds_bind _ _ _).mp followed
        obtain ⟨target, found, followed⟩ := (succeeds_bind _ _ _).mp followed
        rw [succeeds_settled] at found
        exact inductionHypothesis
          (closed.entry name target (expect_eq_ok found)) followed
      · obtain rfl := (succeeds_pure _ _).mp followed
        exact within

/-- Fewer items are left once one more is seen. -/
theorem card_sdiff_cons_lt {Item : Type} [DecidableEq Item] {all : Finset Item}
    {seen : List Item} {item : Item} (within : item ∈ all)
    (fresh : item ∉ seen) :
    (all \ (item :: seen).toFinset).card < (all \ seen.toFinset).card := by
  apply Finset.card_lt_card
  have subset : all \ (item :: seen).toFinset ⊆ all \ seen.toFinset := by
    apply Finset.sdiff_subset_sdiff (Finset.Subset.refl _)
    rw [List.toFinset_cons]
    exact Finset.subset_insert _ _
  refine (Finset.ssubset_iff_of_subset subset).mpr ⟨item, ?_, by simp⟩
  rw [Finset.mem_sdiff, List.mem_toFinset]
  exact ⟨within, fresh⟩

theorem admits_settles_of_closed (followable : Followable definition)
    {schemas : Set Members} (closed : ClosedSchemas definition schemas)
    (assumed : List (String × String)) {values member : Members}
    (values_within : values ∈ schemas) (member_within : member ∈ schemas) :
    Settles IsRefusal fun fuel =>
      admits scientific definition fuel assumed values member := by
  -- Each pair of references is assumed once; between two of them the schemas
  -- compared get smaller.
  obtain ⟨texts, text_within⟩ : ∃ texts : Finset String, ∀ schema ∈ schemas,
      stringify scientific (.object schema) ∈ texts := by
    refine ⟨(closed.finite.image fun schema =>
      stringify scientific (.object schema)).toFinset, ?_⟩
    intro schema within
    exact (Set.Finite.mem_toFinset _).mpr ⟨schema, within, rfl⟩
  obtain ⟨left, counted⟩ : ∃ left,
      ((texts ×ˢ texts) \ assumed.toFinset).card = left := ⟨_, rfl⟩
  induction left using Nat.strong_induction_on
    generalizing assumed values member with
  | _ left fewer =>
    obtain ⟨size, measured⟩ : ∃ size, sizeOf values = size := ⟨_, rfl⟩
    induction size using Nat.strong_induction_on generalizing values member with
    | _ size smaller =>
      refine settles_of_succ rfl ?_
      simp only [admits]
      split
      · exact settles_pure _
      split
      · exact settles_pure _
      split
      · split
        · exact settles_pure _
        · next fresh =>
          refine (dereferenceFrom_settles followable none values).bind
            fun one comes => ?_
          obtain ⟨_, followed⟩ := comes
          have one_within :=
            dereferenceFrom_within closed values_within followed
          refine (dereferenceFrom_settles followable none member).bind
            fun other comes => ?_
          obtain ⟨_, followed⟩ := comes
          have other_within :=
            dereferenceFrom_within closed member_within followed
          split
          · exact settles_pure _
          · refine fewer _ ?_ _ one_within other_within rfl
            rw [← counted]
            refine card_sdiff_cons_lt (Finset.mem_product.mpr ⟨?_, ?_⟩) fresh
            · exact text_within values values_within
            · exact text_within member member_within
      · refine (settles_checked (refuses_admitsNode values member)).bind
          fun parts comes => ?_
        obtain ⟨_, compared⟩ := comes
        rw [succeeds_settled] at compared
        split
        · exact settles_pure _
        · next innerValues innerMember =>
          obtain ⟨one, other, less⟩ := admitsNode_within compared
          exact smaller _ (measured ▸ less)
            (closed.field values values_within _ one)
            (closed.field member member_within _ other) rfl

/-- Comparing two schemas settles. -/
theorem admits_settles (followable : Followable definition)
    (assumed : List (String × String)) (values member : Members) :
    Settles IsRefusal fun fuel =>
      admits scientific definition fuel assumed values member := by
  obtain ⟨schemas, closed, values_within, member_within⟩ :=
    exists_closedSchemas definition values member
  exact admits_settles_of_closed followable closed assumed values_within
    member_within

end Comparing

end Clerkenwell.Codegen
