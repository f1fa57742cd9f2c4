import Clerkenwell.Doc.Policy
import Mathlib.Data.List.Nodup

/-!
# Addresses of judged values

A conflict policy judges the values of a field one by one.  A value is
addressed by the identities of the items that enclose it, and the judge keeps
each value under its address spelt as one text.  The judge is right exactly
when addresses that are spelt alike hold equal values, so an identity that
holds the characters of the spelling can hide a conflict.
-/

namespace Clerkenwell.Doc

open Clerkenwell.Foundation

/-! ## Addressed values -/

/-- The identity of an item, when it has one. -/
def itemIdentity (identityPath : String) (item : Json) : Option String :=
  (judgedValueAtPath item identityPath).bind Json.asStr

/-- The addressed values of one item, under its identity. -/
def itemAddressedValues (values : Json → List (List String × Json))
    (identityPath : String) (item : Json) : List (List String × Json) :=
  match itemIdentity identityPath item with
  | none => []
  | some identity =>
      (values item).map fun (identities, value) =>
        (identity :: identities, value)

/--
The values a path addresses in `scope`, each with the identities of the items
that enclose it, the outermost first.
-/
def addressedValues (plan : CollaborationEntitySpec) :
    Nat → String → String → Json → List (List String × Json)
  | 0, _, _, _ => []
  | depth + 1, declaredPrefix, relative, scope =>
      match Text.splitOnce relative ".*." with
      | none => [([], (judgedValueAtPath scope relative).getD .null)]
      | some (sequenceRelative, rest) =>
          let sequencePath := declaredPrefix ++ sequenceRelative
          match declaredIdentityPath plan sequencePath,
              (judgedValueAtPath scope sequenceRelative).bind
                Json.asArray with
          | some identityPath, some items =>
              items.flatMap
                (itemAddressedValues
                  (addressedValues plan depth (sequencePath ++ ".*.") rest)
                  identityPath)
          | _, _ => []

/-- An address spelt as the judge spells it. -/
def spelling : Nat → String → List String → String
  | 0, _, _ => ""
  | depth + 1, relative, identities =>
      match Text.splitOnce relative ".*.", identities with
      | some (sequenceRelative, rest), identity :: others =>
          sequenceRelative ++ "[" ++ identity ++ "]."
            ++ spelling depth rest others
      | _, _ => relative

/-- Every value a field addresses in a document. -/
def fieldAddressedValues (plan : CollaborationEntitySpec)
    (field : CollaborationFieldSpec) (document : Json) :
    List (List String × Json) :=
  addressedValues plan (field.path.length + 1) "" field.path document

/-- The value at an address of a field, null where there is none. -/
def valueAtAddress (plan : CollaborationEntitySpec)
    (field : CollaborationFieldSpec) (document : Json)
    (identities : List String) : Json :=
  ((fieldAddressedValues plan field document).lookup identities).getD .null

/-- The text a field's address is judged under. -/
def addressText (field : CollaborationFieldSpec)
    (identities : List String) : String :=
  spelling (field.path.length + 1) field.path identities

/-- The identities of items, those without one left out. -/
def itemIdentities (identityPath : String) (items : List Json) :
    List String :=
  items.filterMap (itemIdentity identityPath)

/--
Whether the items of every sequence a path leads through have unique, non-empty
identities.
-/
def uniquelyIdentified (plan : CollaborationEntitySpec) :
    Nat → String → String → Json → Bool
  | 0, _, _, _ => true
  | depth + 1, declaredPrefix, relative, scope =>
      match Text.splitOnce relative ".*." with
      | none => true
      | some (sequenceRelative, rest) =>
          let sequencePath := declaredPrefix ++ sequenceRelative
          match declaredIdentityPath plan sequencePath,
              (judgedValueAtPath scope sequenceRelative).bind
                Json.asArray with
          | some identityPath, some items =>
              let identities := itemIdentities identityPath items
              decide identities.Nodup && !identities.contains ""
                && items.all fun item =>
                  uniquelyIdentified plan depth (sequencePath ++ ".*.") rest
                    item
          | _, _ => true

/-- Every item of a document has an identity unique in its sequence. -/
def Identified (plan : CollaborationEntitySpec) (document : Json) : Prop :=
  ∀ field ∈ plan.fields,
    uniquelyIdentified plan (field.path.length + 1) "" field.path document
      = true

instance (plan : CollaborationEntitySpec) (document : Json) :
    Decidable (Identified plan document) :=
  inferInstanceAs (Decidable (∀ field ∈ plan.fields, _ = true))

/-! ## Addresses are unique -/

section Unique

variable {plan : CollaborationEntitySpec}

theorem addresses_of_items {values : Json → List (List String × Json)}
    {identityPath : String} {items : List Json} {address : List String}
    (member : address ∈
      ((items.flatMap (itemAddressedValues values identityPath)).map
        Prod.fst)) :
    ∃ identity others, address = identity :: others
      ∧ identity ∈ itemIdentities identityPath items := by
  rcases List.mem_map.mp member with ⟨entry, listed, rfl⟩
  rcases List.mem_flatMap.mp listed with ⟨item, there, within⟩
  unfold itemAddressedValues at within
  split at within
  · cases within
  · rename_i identity identified
    rcases List.mem_map.mp within with ⟨inner, -, rfl⟩
    refine ⟨identity, inner.1, rfl, ?_⟩
    exact List.mem_filterMap.mpr ⟨item, there, identified⟩

theorem nodup_items {values : Json → List (List String × Json)}
    {identityPath : String} {items : List Json}
    (unique : (itemIdentities identityPath items).Nodup)
    (inner : ∀ item ∈ items, ((values item).map Prod.fst).Nodup) :
    ((items.flatMap (itemAddressedValues values identityPath)).map
      Prod.fst).Nodup := by
  induction items with
  | nil => exact List.nodup_nil
  | cons item rest inductionHypothesis =>
      have further : ∀ other ∈ rest, ((values other).map Prod.fst).Nodup :=
        fun other member => inner other (List.mem_cons_of_mem _ member)
      rw [List.flatMap_cons, List.map_append]
      cases identified : itemIdentity identityPath item with
      | none =>
          rw [itemIdentities, List.filterMap_cons_none identified] at unique
          simp only [itemAddressedValues, identified, List.map_nil,
            List.nil_append]
          exact inductionHypothesis unique further
      | some identity =>
          rw [itemIdentities, List.filterMap_cons_some identified,
            List.nodup_cons] at unique
          rcases unique with ⟨absent, unique⟩
          rw [List.nodup_append]
          refine ⟨?_, inductionHypothesis unique further, ?_⟩
          · have prefixed :
                (itemAddressedValues values identityPath item).map Prod.fst
                  = ((values item).map Prod.fst).map (identity :: ·) := by
              simp [itemAddressedValues, identified, Function.comp_def]
            rw [prefixed]
            exact (inner item List.mem_cons_self).map List.cons_injective
          · rintro address here _ later rfl
            rcases addresses_of_items later with
              ⟨other, others, rfl, member⟩
            simp only [itemAddressedValues, identified, List.map_map,
              List.mem_map, Function.comp_apply] at here
            rcases here with ⟨entry, -, same⟩
            rw [List.cons.injEq] at same
            rcases same with ⟨rfl, -⟩
            exact absent member

theorem nodup_addressedValues {depth : Nat} {declaredPrefix relative : String}
    {scope : Json}
    (identified :
      uniquelyIdentified plan depth declaredPrefix relative scope = true) :
    ((addressedValues plan depth declaredPrefix relative scope).map
      Prod.fst).Nodup := by
  induction depth generalizing declaredPrefix relative scope with
  | zero => exact List.nodup_nil
  | succ depth inductionHypothesis =>
      unfold addressedValues
      unfold uniquelyIdentified at identified
      cases split : Text.splitOnce relative ".*." with
      | none => simp
      | some parts =>
          rcases parts with ⟨sequenceRelative, rest⟩
          rw [split] at identified
          dsimp only at identified ⊢
          split
          · rename_i identityPath items declared listed
            rw [declared, listed] at identified
            simp only [Bool.and_eq_true, decide_eq_true_eq,
              List.all_eq_true] at identified
            rcases identified with ⟨⟨unique, -⟩, inner⟩
            exact nodup_items unique fun item member =>
              inductionHypothesis (inner item member)
          · exact List.nodup_nil

end Unique

/-! ## The judge's maps -/

section Maps

variable {plan : CollaborationEntitySpec}

/-- Values inserted under their addresses, each spelt as it is judged. -/
def insertSpelt (spell : List String → String)
    (entries : List (List String × Json)) (values : FieldValues) :
    FieldValues :=
  entries.foldl (fun values entry => values.insert (spell entry.1) entry.2)
    values

theorem collectFieldValues_eq (depth : Nat)
    (declaredPrefix relative : String) (scope : Json) (keyPrefix : String)
    (values : FieldValues) :
    collectFieldValues plan depth declaredPrefix relative scope keyPrefix
        values
      = insertSpelt (fun identities => keyPrefix
            ++ spelling depth relative identities)
          (addressedValues plan depth declaredPrefix relative scope)
          values := by
  induction depth generalizing declaredPrefix relative scope keyPrefix values
    with
  | zero => rfl
  | succ depth inductionHypothesis =>
      unfold collectFieldValues addressedValues
      cases split : Text.splitOnce relative ".*." with
      | none => simp [insertSpelt, spelling, split]
      | some parts =>
          rcases parts with ⟨sequenceRelative, rest⟩
          dsimp only
          cases declaredIdentityPath plan
              (declaredPrefix ++ sequenceRelative) with
          | none => rfl
          | some identityPath =>
              cases (judgedValueAtPath scope sequenceRelative).bind
                  Json.asArray with
              | none => rfl
              | some items =>
                  dsimp only
                  rw [insertSpelt, List.foldl_flatMap]
                  congr 1
                  funext values item
                  unfold itemAddressedValues itemIdentity
                  cases (judgedValueAtPath item identityPath).bind
                      Json.asStr with
                  | none => rfl
                  | some identity =>
                      dsimp only
                      rw [inductionHypothesis, insertSpelt, List.foldl_map]
                      simp only [spelling, split, String.append_assoc]

theorem fieldValues_eq (field : CollaborationFieldSpec) (document : Json) :
    fieldValues plan field document
      = insertSpelt (addressText field)
          (fieldAddressedValues plan field document) ∅ := by
  rw [fieldValues, collectFieldValues_eq]
  simp only [String.empty_append]
  rfl

/-- A text under which every value inserted is the same. -/
theorem getElem?_insertSpelt {spell : List String → String}
    {entries : List (List String × Json)} {values : FieldValues}
    {key : String} {value : Json}
    (same : ∀ entry ∈ entries, spell entry.1 = key → entry.2 = value)
    (there : (∃ entry ∈ entries, spell entry.1 = key)
      ∨ values[key]? = some value) :
    (insertSpelt spell entries values)[key]? = some value := by
  induction entries generalizing values with
  | nil =>
      rcases there with ⟨entry, member, -⟩ | held
      · cases member
      · exact held
  | cons entry rest inductionHypothesis =>
      have further : ∀ other ∈ rest, spell other.1 = key → other.2 = value :=
        fun other member => same other (List.mem_cons_of_mem _ member)
      apply inductionHypothesis further
      by_cases spelt : spell entry.1 = key
      · right
        show (values.insert (spell entry.1) entry.2)[key]? = some value
        rw [spelt, Std.ExtTreeMap.getElem?_insert_self,
          same entry List.mem_cons_self spelt]
      · rcases there with ⟨other, member, spelt_other⟩ | held
        · rcases List.mem_cons.mp member with rfl | later
          · exact absurd spelt_other spelt
          · exact .inl ⟨other, later, spelt_other⟩
        · right
          show (values.insert (spell entry.1) entry.2)[key]? = some value
          rw [Std.ExtTreeMap.getElem?_insert, if_neg (by simpa using spelt)]
          exact held

/-- A text under which no value is inserted. -/
theorem getElem?_insertSpelt_of_not {spell : List String → String}
    {entries : List (List String × Json)} {values : FieldValues}
    {key : String} (absent : ∀ entry ∈ entries, spell entry.1 ≠ key) :
    (insertSpelt spell entries values)[key]? = values[key]? := by
  induction entries generalizing values with
  | nil => rfl
  | cons entry rest inductionHypothesis =>
      have other : spell entry.1 ≠ key := absent entry List.mem_cons_self
      have later := @inductionHypothesis (values.insert (spell entry.1) entry.2)
        fun entry member => absent entry (List.mem_cons_of_mem _ member)
      rw [insertSpelt, List.foldl_cons]
      refine later.trans ?_
      rw [Std.ExtTreeMap.getElem?_insert, if_neg (by simpa using other)]

theorem mem_keys_fieldValues {field : CollaborationFieldSpec}
    {document : Json} {key : String} :
    key ∈ (fieldValues plan field document).keys
      ↔ ∃ identities ∈
          (fieldAddressedValues plan field document).map Prod.fst,
        addressText field identities = key := by
  rw [Std.ExtTreeMap.mem_keys, Std.ExtTreeMap.mem_iff_isSome_getElem?,
    fieldValues_eq]
  generalize fieldAddressedValues plan field document = entries
  have built : ∀ values : FieldValues,
      (insertSpelt (addressText field) entries values)[key]?.isSome = true
        ↔ (∃ identities ∈ entries.map Prod.fst,
            addressText field identities = key)
          ∨ values[key]?.isSome = true := by
    induction entries with
    | nil => simp [insertSpelt]
    | cons entry rest inductionHypothesis =>
        intro values
        have later :=
          inductionHypothesis (values.insert (addressText field entry.1) entry.2)
        rw [insertSpelt, List.foldl_cons]
        refine later.trans ?_
        rw [Std.ExtTreeMap.getElem?_insert]
        by_cases spelt : addressText field entry.1 = key
        · simp [spelt]
        · simp [spelt]
  rw [built ∅]
  simp

end Maps

/-! ## The judge and the policies -/

section Judging

variable (plan : CollaborationEntitySpec) (field : CollaborationFieldSpec)

/-- A change of a value violates a policy. -/
def Violates (conflict : CollaborationConflict)
    (base client current : Json) : Prop :=
  match conflict with
  | .immutable => client ≠ base
  | .explicit => client ≠ base ∧ current ≠ base ∧ client ≠ current
  | .merge | .lastWriterWins => False

/-- A field whose changes a writer's kind is judged for. -/
def JudgedFor (kind : ActorKind) : Prop :=
  field.isDerived = false
    ∧ (field.conflictFor kind = .explicit
      ∨ field.conflictFor kind = .immutable)

instance (kind : ActorKind) : Decidable (JudgedFor field kind) :=
  inferInstanceAs (Decidable (_ ∧ _))

/-- An address some document has a value at. -/
def Occurs (documents : List Json) (identities : List String) : Prop :=
  ∃ document ∈ documents,
    identities ∈ (fieldAddressedValues plan field document).map Prod.fst

/-- Every value is judged under its own address, and absent ones as null. -/
def JudgedOwn (documents : List Json) : Prop :=
  ∀ identities, Occurs plan field documents identities →
    ∀ document ∈ documents,
      ((fieldValues plan field document)[addressText field identities]?).getD
          .null
        = valueAtAddress plan field document identities

/-- Addresses that are spelt alike hold equal values. -/
def SpeltApart (documents : List Json) : Prop :=
  ∀ identities others, Occurs plan field documents identities →
    Occurs plan field documents others →
      addressText field identities = addressText field others →
        ∀ document ∈ documents,
          valueAtAddress plan field document identities
            = valueAtAddress plan field document others

/-- Some value violates its field's policy for a writer of a kind. -/
def SomeViolated (kind : ActorKind) (base client current : Json) : Prop :=
  ∃ field ∈ plan.fields, field.isDerived = false
    ∧ ∃ identities,
        Violates (field.conflictFor kind)
          (valueAtAddress plan field base identities)
          (valueAtAddress plan field client identities)
          (valueAtAddress plan field current identities)

variable {plan field}

theorem refusesChange_iff {conflict : CollaborationConflict}
    {base client current : Json} :
    refusesChange conflict base client current = true
      ↔ Violates conflict base client current := by
  cases conflict <;> simp [refusesChange, Violates, and_assoc]

theorem lookup_of_nodup {entries : List (List String × Json)}
    (unique : (entries.map Prod.fst).Nodup) {entry : List String × Json}
    (member : entry ∈ entries) :
    entries.lookup entry.1 = some entry.2 := by
  induction entries with
  | nil => cases member
  | cons first rest inductionHypothesis =>
      rw [List.map_cons, List.nodup_cons] at unique
      rw [List.lookup_cons]
      rcases List.mem_cons.mp member with rfl | later
      · simp
      · have other : (entry.1 == first.1) = false := by
          rw [beq_eq_false_iff_ne]
          intro same
          exact unique.1 (same ▸ List.mem_map_of_mem later)
        rw [other]
        exact inductionHypothesis unique.2 later

theorem lookup_of_not_mem {entries : List (List String × Json)}
    {identities : List String}
    (absent : identities ∉ entries.map Prod.fst) :
    entries.lookup identities = none := by
  rw [List.lookup_eq_none_iff]
  intro entry member
  rw [bne_iff_ne]
  rintro rfl
  exact absent (List.mem_map_of_mem member)

theorem Identified.nodup {document : Json}
    (identified : Identified plan document) (declared : field ∈ plan.fields) :
    ((fieldAddressedValues plan field document).map Prod.fst).Nodup :=
  nodup_addressedValues (identified field declared)

theorem valueAtAddress_of_mem {document : Json}
    (unique : ((fieldAddressedValues plan field document).map Prod.fst).Nodup)
    {entry : List String × Json}
    (member : entry ∈ fieldAddressedValues plan field document) :
    valueAtAddress plan field document entry.1 = entry.2 := by
  rw [valueAtAddress, lookup_of_nodup unique member, Option.getD_some]

theorem valueAtAddress_of_not_mem {document : Json} {identities : List String}
    (absent :
      identities ∉ (fieldAddressedValues plan field document).map Prod.fst) :
    valueAtAddress plan field document identities = .null := by
  rw [valueAtAddress, lookup_of_not_mem absent, Option.getD_none]

/-- Values are judged as their own exactly when equal spellings are harmless. -/
theorem judgedOwn_iff {documents : List Json}
    (unique : ∀ document ∈ documents,
      ((fieldAddressedValues plan field document).map Prod.fst).Nodup) :
    JudgedOwn plan field documents ↔ SpeltApart plan field documents := by
  constructor
  · intro own identities others occurs otherOccurs spelt document member
    rw [← own identities occurs document member,
      ← own others otherOccurs document member, spelt]
  · intro apart identities occurs document member
    rw [fieldValues_eq]
    by_cases there : ∃ entry ∈ fieldAddressedValues plan field document,
        addressText field entry.1 = addressText field identities
    · have same : ∀ entry ∈ fieldAddressedValues plan field document,
          addressText field entry.1 = addressText field identities →
            entry.2 = valueAtAddress plan field document identities := by
        intro entry listed spelt
        have occurring : Occurs plan field documents entry.1 :=
          ⟨document, member, List.mem_map_of_mem listed⟩
        rw [← apart entry.1 identities occurring occurs spelt document member,
          valueAtAddress_of_mem (unique document member) listed]
      rw [getElem?_insertSpelt same (.inl there), Option.getD_some]
    · rw [getElem?_insertSpelt_of_not fun entry listed spelt =>
        there ⟨entry, listed, spelt⟩]
      have absent :
          identities ∉ (fieldAddressedValues plan field document).map
            Prod.fst := by
        intro listed
        rcases List.mem_map.mp listed with ⟨entry, held, rfl⟩
        exact there ⟨entry, held, rfl⟩
      rw [valueAtAddress_of_not_mem absent]
      simp

theorem mem_refusedAddresses {conflict : CollaborationConflict}
    {base client current : Json} {key : String} :
    key ∈ refusedAddresses plan field conflict base client current
      ↔ (∃ identities, Occurs plan field [base, client, current] identities
          ∧ addressText field identities = key)
        ∧ Violates conflict
            (((fieldValues plan field base)[key]?).getD .null)
            (((fieldValues plan field client)[key]?).getD .null)
            (((fieldValues plan field current)[key]?).getD .null) := by
  have listed :
      key ∈ (fieldValues plan field base).keys
          ++ (fieldValues plan field client).keys
          ++ (fieldValues plan field current).keys
        ↔ ∃ identities, Occurs plan field [base, client, current] identities
          ∧ addressText field identities = key := by
    rw [List.mem_append, List.mem_append, mem_keys_fieldValues,
      mem_keys_fieldValues, mem_keys_fieldValues]
    simp only [Occurs, List.mem_cons, List.not_mem_nil, or_false,
      or_and_right, exists_or, exists_eq_left, or_assoc]
  rw [refusedAddresses, List.mem_filter, listed, refusesChange_iff]

/-- Where values are judged as their own, what is refused is a violation. -/
theorem refusedAddresses_ne_nil_iff {conflict : CollaborationConflict}
    {base client current : Json}
    (own : JudgedOwn plan field [base, client, current]) :
    refusedAddresses plan field conflict base client current ≠ []
      ↔ ∃ identities, Violates conflict
          (valueAtAddress plan field base identities)
          (valueAtAddress plan field client identities)
          (valueAtAddress plan field current identities) := by
  have values : ∀ identities,
      Occurs plan field [base, client, current] identities →
        (Violates conflict
            (((fieldValues plan field base)[addressText field
              identities]?).getD .null)
            (((fieldValues plan field client)[addressText field
              identities]?).getD .null)
            (((fieldValues plan field current)[addressText field
              identities]?).getD .null)
          ↔ Violates conflict
            (valueAtAddress plan field base identities)
            (valueAtAddress plan field client identities)
            (valueAtAddress plan field current identities)) := by
    intro identities occurs
    rw [own identities occurs base (by simp),
      own identities occurs client (by simp),
      own identities occurs current (by simp)]
  constructor
  · intro some_refused
    rcases List.exists_mem_of_ne_nil _ some_refused with ⟨key, member⟩
    rcases mem_refusedAddresses.mp member with
      ⟨⟨identities, occurs, rfl⟩, violated⟩
    exact ⟨identities, (values identities occurs).mp violated⟩
  · rintro ⟨identities, violated⟩
    have occurs : Occurs plan field [base, client, current] identities := by
      by_contra nowhere
      have absent : ∀ document ∈ [base, client, current],
          valueAtAddress plan field document identities = .null :=
        fun document member => valueAtAddress_of_not_mem fun listed =>
          nowhere ⟨document, member, listed⟩
      rw [absent base (by simp), absent client (by simp),
        absent current (by simp)] at violated
      cases conflict <;> simp [Violates] at violated
    exact List.ne_nil_of_mem (mem_refusedAddresses.mpr
      ⟨⟨identities, occurs, rfl⟩, (values identities occurs).mpr violated⟩)

theorem conflictingFieldPaths_ne_nil_iff {kind : ActorKind}
    {base client current : Json} :
    conflictingFieldPaths plan base client current kind ≠ []
      ↔ ∃ field ∈ plan.fields, JudgedFor field kind
          ∧ refusedAddresses plan field (field.conflictFor kind) base client
              current ≠ [] := by
  rw [conflictingFieldPaths, judgedFieldPaths, Ne,
    Std.ExtTreeSet.toList_eq_nil_iff, Std.ExtTreeSet.ofList_eq_empty_iff,
    List.flatMap_eq_nil_iff]
  push Not
  constructor
  · rintro ⟨field, declared, refused⟩
    split at refused
    · rename_i judged
      refine ⟨field, declared, ?_, refused⟩
      simpa [JudgedFor, and_comm] using judged
    · exact absurd rfl refused
  · rintro ⟨field, declared, judged, refused⟩
    refine ⟨field, declared, ?_⟩
    have condition : ((field.conflictFor kind == .explicit
        || field.conflictFor kind == .immutable) && !field.isDerived)
        = true := by
      simpa [JudgedFor, and_comm] using judged
    rw [if_pos condition]
    exact refused

theorem JudgedFor.of_violates {kind : ActorKind} {base client current : Json}
    (stored : field.isDerived = false)
    (violated : Violates (field.conflictFor kind) base client current) :
    JudgedFor field kind := by
  refine ⟨stored, ?_⟩
  cases conflict : field.conflictFor kind <;> simp [conflict, Violates]
    at violated ⊢

/--
The judge compares every value with its own, and refuses an edit exactly when
some value violates its policy, if and only if no two addresses of a judged
field are spelt alike where they hold different values.
-/
theorem conflicts_exact_iff (plan : CollaborationEntitySpec)
    (kind : ActorKind) (base client current : Json)
    (identified : ∀ document ∈ [base, client, current],
      Identified plan document) :
    ((∀ field ∈ plan.fields, JudgedFor field kind →
        JudgedOwn plan field [base, client, current])
      ∧ (conflictingFieldPaths plan base client current kind ≠ []
          ↔ SomeViolated plan kind base client current))
      ↔ ∀ field ∈ plan.fields, JudgedFor field kind →
          SpeltApart plan field [base, client, current] := by
  have unique : ∀ field ∈ plan.fields,
      ∀ document ∈ [base, client, current],
        ((fieldAddressedValues plan field document).map Prod.fst).Nodup :=
    fun field declared document member =>
      (identified document member).nodup declared
  constructor
  · rintro ⟨own, -⟩ field declared judged
    exact (judgedOwn_iff (unique field declared)).mp
      (own field declared judged)
  · intro apart
    have own : ∀ field ∈ plan.fields, JudgedFor field kind →
        JudgedOwn plan field [base, client, current] :=
      fun field declared judged =>
        (judgedOwn_iff (unique field declared)).mpr
          (apart field declared judged)
    refine ⟨own, ?_⟩
    rw [conflictingFieldPaths_ne_nil_iff]
    constructor
    · rintro ⟨field, declared, judged, refused⟩
      exact ⟨field, declared, judged.1,
        (refusedAddresses_ne_nil_iff (own field declared judged)).mp refused⟩
    · rintro ⟨field, declared, stored, identities, violated⟩
      have judged : JudgedFor field kind := .of_violates stored violated
      exact ⟨field, declared, judged,
        (refusedAddresses_ne_nil_iff (own field declared judged)).mpr
          ⟨identities, violated⟩⟩

/-! ## Identities without a bracket -/

/-- The sequences a path leads through. -/
def sequencesOn : Nat → String → Nat
  | 0, _ => 0
  | depth + 1, relative =>
      match Text.splitOnce relative ".*." with
      | none => 0
      | some (_, rest) => sequencesOn depth rest + 1

theorem length_of_addressed {depth : Nat} {declaredPrefix relative : String}
    {scope : Json} {entry : List String × Json}
    (member :
      entry ∈ addressedValues plan depth declaredPrefix relative scope) :
    entry.1.length = sequencesOn depth relative := by
  induction depth generalizing declaredPrefix relative scope entry with
  | zero => cases member
  | succ depth inductionHypothesis =>
      unfold addressedValues at member
      unfold sequencesOn
      cases split : Text.splitOnce relative ".*." with
      | none =>
          rw [split] at member
          rw [List.mem_singleton.mp member]
          rfl
      | some parts =>
          rcases parts with ⟨sequenceRelative, rest⟩
          rw [split] at member
          dsimp only at member ⊢
          split at member
          · rcases List.mem_flatMap.mp member with ⟨item, -, within⟩
            unfold itemAddressedValues at within
            split at within
            · cases within
            · rcases List.mem_map.mp within with ⟨inner, listed, rfl⟩
              rw [List.length_cons, inductionHypothesis listed]
          · cases member

/-- Lists that do not hold a mark end where it first stands. -/
theorem append_mark_injective {α : Type} {mark : α}
    {left right leftRest rightRest : List α}
    (leftFree : mark ∉ left) (rightFree : mark ∉ right)
    (same : left ++ mark :: leftRest = right ++ mark :: rightRest) :
    left = right ∧ leftRest = rightRest := by
  induction left generalizing right with
  | nil =>
      cases right with
      | nil => exact ⟨rfl, (List.cons.inj same).2⟩
      | cons first others =>
          exact absurd ((List.cons.inj same).1 ▸ List.mem_cons_self) rightFree
  | cons first others inductionHypothesis =>
      cases right with
      | nil =>
          exact absurd ((List.cons.inj same).1 ▸ List.mem_cons_self) leftFree
      | cons head tail =>
          rcases List.cons.inj same with ⟨rfl, further⟩
          rcases inductionHypothesis
              (fun member => leftFree (List.mem_cons_of_mem _ member))
              (fun member => rightFree (List.mem_cons_of_mem _ member))
              further with ⟨rfl, rest⟩
          exact ⟨rfl, rest⟩

/-- An identity that holds no bracket ends where the spelling says it does. -/
theorem spelling_injective {depth : Nat} {relative : String}
    {identities others : List String}
    (length : identities.length = sequencesOn depth relative)
    (otherLength : others.length = sequencesOn depth relative)
    (bracketFree : ∀ identity ∈ identities, ']' ∉ identity.toList)
    (otherFree : ∀ identity ∈ others, ']' ∉ identity.toList)
    (spelt :
      spelling depth relative identities = spelling depth relative others) :
    identities = others := by
  induction depth generalizing relative identities others with
  | zero =>
      rw [List.length_eq_zero_iff.mp length,
        List.length_eq_zero_iff.mp otherLength]
  | succ depth inductionHypothesis =>
      unfold sequencesOn at length otherLength
      cases split : Text.splitOnce relative ".*." with
      | none =>
          rw [split] at length otherLength
          rw [List.length_eq_zero_iff.mp length,
            List.length_eq_zero_iff.mp otherLength]
      | some parts =>
          rcases parts with ⟨sequenceRelative, rest⟩
          rw [split] at length otherLength
          rcases List.exists_cons_of_length_eq_add_one length with
            ⟨identity, inner, rfl⟩
          rcases List.exists_cons_of_length_eq_add_one otherLength with
            ⟨other, otherInner, rfl⟩
          have texts := congrArg String.toList spelt
          simp only [spelling, split, String.toList_append,
            List.append_assoc] at texts
          have remainder : identity.toList
              ++ ']' :: ('.' :: (spelling depth rest inner).toList)
                = other.toList
              ++ ']' :: ('.' :: (spelling depth rest otherInner).toList) :=
            List.append_cancel_left (List.append_cancel_left texts)
          rcases append_mark_injective
              (bracketFree identity List.mem_cons_self)
              (otherFree other List.mem_cons_self) remainder with
            ⟨same, tail⟩
          rw [String.toList_inj.mp same]
          have inner_same := (List.cons.inj tail).2
          rw [inductionHypothesis (Nat.succ.inj length)
            (Nat.succ.inj otherLength)
            (fun identity member => bracketFree identity
              (List.mem_cons_of_mem _ member))
            (fun identity member => otherFree identity
              (List.mem_cons_of_mem _ member))
            (String.toList_inj.mp inner_same)]

/-- Identities that hold no bracket are never spelt alike. -/
theorem speltApart_of_bracketFree {documents : List Json}
    (bracketFree : ∀ identities, Occurs plan field documents identities →
      ∀ identity ∈ identities, ']' ∉ identity.toList) :
    SpeltApart plan field documents := by
  have length : ∀ identities, Occurs plan field documents identities →
      identities.length = sequencesOn (field.path.length + 1) field.path := by
    rintro identities ⟨document, -, listed⟩
    rcases List.mem_map.mp listed with ⟨entry, member, rfl⟩
    exact length_of_addressed member
  intro identities others occurs otherOccurs spelt document _
  rw [spelling_injective (length identities occurs) (length others otherOccurs)
    (bracketFree identities occurs) (bracketFree others otherOccurs) spelt]

/-! ## Cards in columns -/

/-- A field of a board that a test judges, kept in a container of its own. -/
def boardField (path : String) (kind : CollaborationStorageKind)
    (codec : CollaborationValueCodec) (conflict : CollaborationConflict) :
    CollaborationFieldSpec where
  path := path
  storageKind := kind
  container := none
  containerTemplate := some "column.{column}.card.{card}"
  key := some "text"
  identityPath := some "id"
  identityVariable := none
  orderContainer := some "order"
  metadataContainer := none
  metadataContainerTemplate := none
  metadataKey := none
  codec := codec
  required := true
  requiredInParent := true
  conflict := conflict
  writers := []

/-- Columns of cards whose texts may not change. -/
def boardPlan : CollaborationEntitySpec where
  name := "board"
  idField := "id"
  schemaVersion := 1
  fields :=
    [boardField "columns" .keyedSequence .keyedSequence .merge,
      boardField "columns.*.cards" .keyedSequence .keyedSequence .merge,
      boardField "columns.*.cards.*.text" .scalar .string .immutable]
  schemaVersion_pos := by decide

/-- A column of one card. -/
def column (identity card text : String) : Json :=
  .object
    [("cards", .array [.object [("id", .string card), ("text", .string text)]]),
      ("id", .string identity)]

/-- A board of columns. -/
def board (columns : List Json) : Json :=
  .object [("columns", .array columns)]

/-- A card whose text changed. -/
theorem conflicts_exact_board :
    conflictingFieldPaths boardPlan (board [column "a" "b" "old"])
        (board [column "a" "b" "new"]) (board [column "a" "b" "old"]) .human
      ≠ []
    ↔ SomeViolated boardPlan .human (board [column "a" "b" "old"])
        (board [column "a" "b" "new"]) (board [column "a" "b" "old"]) := by
  have identified : ∀ document ∈
      [board [column "a" "b" "old"], board [column "a" "b" "new"],
        board [column "a" "b" "old"]], Identified boardPlan document := by
    decide +kernel
  have exact_iff := conflicts_exact_iff boardPlan .human
    (board [column "a" "b" "old"]) (board [column "a" "b" "new"])
    (board [column "a" "b" "old"]) identified
  refine (exact_iff.mpr fun field declared judged => ?_).2
  apply speltApart_of_bracketFree
  rintro identities ⟨document, member, listed⟩
  revert identities
  revert document
  revert field
  decide +kernel

/--
Two cards whose addresses are spelt alike: the change of the first one's text is
judged as none.
-/
theorem bracketed_identities_hide_conflict :
    Identified boardPlan
        (board [column "x].cards[y" "z" "old", column "x" "y].cards[z" "same"])
      ∧ Identified boardPlan
        (board [column "x].cards[y" "z" "new", column "x" "y].cards[z" "same"])
      ∧ SomeViolated boardPlan .human
        (board [column "x].cards[y" "z" "old", column "x" "y].cards[z" "same"])
        (board [column "x].cards[y" "z" "new", column "x" "y].cards[z" "same"])
        (board [column "x].cards[y" "z" "old", column "x" "y].cards[z" "same"])
      ∧ conflictingFieldPaths boardPlan
        (board [column "x].cards[y" "z" "old", column "x" "y].cards[z" "same"])
        (board [column "x].cards[y" "z" "new", column "x" "y].cards[z" "same"])
        (board [column "x].cards[y" "z" "old", column "x" "y].cards[z" "same"])
        .human = [] := by
  refine ⟨by decide +kernel, by decide +kernel, ?_, by decide +kernel⟩
  refine ⟨boardField "columns.*.cards.*.text" .scalar .string .immutable,
    by decide +kernel, by decide +kernel, ["x].cards[y", "z"], ?_⟩
  show valueAtAddress _ _ _ _ ≠ valueAtAddress _ _ _ _
  decide +kernel

end Judging

end Clerkenwell.Doc
