import Clerkenwell.Codegen.CheckedNodes
import Clerkenwell.Foundation.Settling
import Mathlib.Data.Finset.Card

/-!
# References settle

A definition whose reference chains are checked has none that is followed for
ever.
-/

namespace Clerkenwell.Codegen

open Clerkenwell.Foundation Running

/-! ## Refusals -/

/-- Whether a check failed by refusing the definition. -/
def IsRefusal (failure : Failure) : Prop :=
  ∃ message, failure = .refused message

/-- Whether a check accepts, or refuses the definition. -/
def Refuses {Value : Type} (checked : Checked Value) : Prop :=
  ∀ failure, checked = .error failure → IsRefusal failure

theorem refuses_ok {Value : Type} (value : Value) :
    Refuses (.ok value : Checked Value) :=
  fun _ same => by cases same

theorem refuses_pure {Value : Type} (value : Value) :
    Refuses (pure value : Checked Value) :=
  refuses_ok value

theorem refuses_refuse {Value : Type} (message : String) :
    Refuses (refuse message : Checked Value) := by
  intro failure same
  cases same
  exact ⟨message, rfl⟩

theorem refuses_expect {Value : Type} {found : Option Value} {value : Value}
    (present : found = some value) : Refuses (expect found) := by
  rw [present]
  exact refuses_ok value

theorem Refuses.bind {Value Result : Type} {checked : Checked Value}
    {next : Value → Checked Result} (refuses : Refuses checked)
    (next_refuses : ∀ value, checked = .ok value → Refuses (next value)) :
    Refuses (checked >>= next) := by
  cases checked with
  | error failure =>
      intro other same
      exact refuses other (by cases same; rfl)
  | ok value => exact next_refuses value rfl

theorem refuses_discard {Value : Type} {checked : Checked Value}
    (refuses : Refuses checked) : Refuses (discard checked) := by
  cases checked with
  | error failure =>
      intro other same
      exact refuses other (by cases same; rfl)
  | ok value => exact refuses_ok _

theorem refuses_forM {Item : Type} {body : Item → Checked PUnit}
    (items : List Item) (refuses : ∀ item ∈ items, Refuses (body item)) :
    Refuses (forM items body) := by
  induction items with
  | nil => exact refuses_pure _
  | cons item rest inductionHypothesis =>
      rw [List.forM_cons]
      refine (refuses item List.mem_cons_self).bind fun _ _ => ?_
      exact inductionHypothesis fun later within =>
        refuses later (List.mem_cons_of_mem _ within)

/-- A loop refuses just where its body does for every item it comes to. -/
theorem refuses_forM_iff {Item : Type} {body : Item → Checked PUnit}
    {items : List Item} :
    Refuses (forM items body)
      ↔ ∀ before item after, items = before ++ item :: after →
        (∀ earlier ∈ before, body earlier = .ok ⟨⟩) → Refuses (body item) := by
  induction items with
  | nil => simp [refuses_pure]
  | cons first rest inductionHypothesis =>
      rw [List.forM_cons]
      constructor
      · intro refuses before item after split earlier
        cases before with
        | nil =>
            obtain ⟨rfl, -⟩ := List.cons.inj split
            intro failure failed
            exact refuses failure (by rw [failed]; rfl)
        | cons other before =>
            obtain ⟨rfl, rest_split⟩ := List.cons.inj split
            rw [earlier _ List.mem_cons_self] at refuses
            refine inductionHypothesis.mp refuses before item after
              rest_split ?_
            exact fun other within =>
              earlier other (List.mem_cons_of_mem _ within)
      · intro each
        refine (each [] first rest rfl (by simp)).bind fun _ passed => ?_
        refine inductionHypothesis.mpr fun before item after split earlier => ?_
        refine each (first :: before) item after (by rw [split]; rfl) ?_
        exact List.forall_mem_cons.mpr ⟨passed, earlier⟩

theorem refuses_ite {Value : Type} {condition : Prop} [Decidable condition]
    {one other : Checked Value} (one_refuses : condition → Refuses one)
    (other_refuses : ¬condition → Refuses other) :
    Refuses (if condition then one else other) := by
  split
  · next held => exact one_refuses held
  · next held => exact other_refuses held

theorem settles_checked {Value : Type} {checked : Checked Value}
    (refuses : Refuses checked) :
    Settles IsRefusal fun _ => (settled checked : Running Failure Value) :=
  settles_settled refuses

theorem settles_checked_iff {Value : Type} {checked : Checked Value} :
    Settles IsRefusal (fun _ => (settled checked : Running Failure Value))
      ↔ Refuses checked := by
  refine ⟨fun settles => ?_, settles_checked⟩
  obtain ⟨-, _, outcome, come, allowed⟩ := settles
  obtain rfl : checked = outcome := Option.some.inj come
  exact allowed

/-- What follows a check settles just where it does after what is accepted. -/
theorem settles_checked_bind_iff {Value Result : Type}
    {checked : Checked Value} {next : Value → Nat → Running Failure Result}
    (refuses : Refuses checked) :
    Settles IsRefusal (fun fuel => settled checked >>= fun value =>
        next value fuel)
      ↔ ∀ value, checked = .ok value → Settles IsRefusal (next value) := by
  cases checked with
  | ok value =>
      simp only [settled_bind_ok]
      exact ⟨fun settles _ same => Except.ok.inj same ▸ settles,
        fun settles => settles value rfl⟩
  | error failure =>
      obtain ⟨message, rfl⟩ := refuses failure rfl
      exact ⟨fun _ _ same => (by cases same),
        fun _ => settles_throw ⟨message, rfl⟩⟩

theorem settles_refused {Value : Type} (message : String) :
    Settles IsRefusal fun _ =>
      (throw (.refused message) : Running Failure Value) :=
  settles_throw ⟨message, rfl⟩

/-! ## One reference -/

section References

variable {definition : Sections} {schema target : Members} {context : String}

theorem refuses_schemaRefName :
    Refuses (schemaRefName definition schema context) := by
  unfold schemaRefName
  split
  · exact refuses_refuse _
  · exact refuses_ite (fun _ => refuses_refuse _) fun _ => refuses_ok _

theorem schemaRefName_ok {name : String}
    (named : schemaRefName definition schema context = .ok name) :
    localReferenceName (schema.get? "$ref") = some name
      ∧ ∃ target, definition.def? name = some target := by
  unfold schemaRefName at named
  split at named
  · cases named
  · next found reference =>
    split at named
    · cases named
    · next known =>
      obtain rfl := Except.ok.inj named
      refine ⟨reference, Option.isSome_iff_exists.mp ?_⟩
      simpa [Option.isSome_iff_ne_none] using known

/-- What is read of a reference does not depend on what asked for it. -/
theorem schemaRefName_of_ok {name : String}
    (named : schemaRefName definition schema context = .ok name)
    (other : String) : schemaRefName definition schema other = .ok name := by
  obtain ⟨reference, target, found⟩ := schemaRefName_ok named
  unfold schemaRefName
  rw [reference]
  simp [found]

theorem refuses_resolveRef : Refuses (resolveRef definition schema context) := by
  refine refuses_schemaRefName.bind fun name named => ?_
  obtain ⟨-, target, found⟩ := schemaRefName_ok named
  exact refuses_expect found

theorem mem_keys_of_def? {name : String}
    (found : definition.def? name = some target) :
    name ∈ definition.defs.keys := by
  rw [← Members.containsKey_iff, Members.containsKey,
    objectField_eq_some.mp found]
  rfl

/-! ## Chains of references -/

theorem checkReferenceChain_settles (definitionName : String)
    (chain : List String) (distinct : chain.Nodup)
    (named : ∀ name ∈ chain, name ∈ definition.defs.keys) (schema : Members) :
    Settles IsRefusal fun fuel =>
      checkReferenceChain definition definitionName chain fuel schema := by
  obtain ⟨left, counted⟩ : ∃ left, definition.defs.keys.toFinset.card
      - chain.length = left := ⟨_, rfl⟩
  induction left using Nat.strong_induction_on generalizing chain schema with
  | _ left inductionHypothesis =>
    refine settles_of_succ rfl ?_
    simp only [checkReferenceChain]
    split
    · exact settles_pure _
    · refine (settles_checked refuses_schemaRefName).bind fun name comes => ?_
      split
      · exact settles_refused _
      · next fresh =>
        split
        · exact settles_pure _
        · next target found =>
          have longer : (name :: chain).Nodup :=
            List.nodup_cons.mpr ⟨by simpa using fresh, distinct⟩
          have known : ∀ other ∈ name :: chain,
              other ∈ definition.defs.keys := by
            intro other within
            rcases List.mem_cons.mp within with rfl | within
            · exact mem_keys_of_def? found
            · exact named other within
          have bounded : (name :: chain).length
              ≤ definition.defs.keys.toFinset.card := by
            rw [← List.toFinset_card_of_nodup longer]
            apply Finset.card_le_card
            intro other within
            exact List.mem_toFinset.mpr
              (known other (List.mem_toFinset.mp within))
          rw [List.length_cons] at bounded
          refine inductionHypothesis _ ?_ (name :: chain) longer known target rfl
          rw [List.length_cons]
          omega

theorem checkReferenceChains_settles :
    Settles IsRefusal fun fuel => checkReferenceChains definition fuel := by
  unfold checkReferenceChains
  refine settles_forM definition.defs ?_
  rintro ⟨name, schema⟩ within
  cases held : schema.asObject with
  | none =>
      simp only [held]
      exact settles_pure _
  | some members =>
      simp only [held]
      refine checkReferenceChain_settles name [name] (by simp) ?_ members
      intro other only
      obtain rfl := List.mem_singleton.mp only
      exact List.mem_map_of_mem within

/-! ## Following references -/

/-- Whether following references from any schema of a definition ends. -/
def Followable (definition : Sections) : Prop :=
  ∀ name target, definition.def? name = some target → ∀ reached,
    Settles IsRefusal fun fuel =>
      dereferenceFrom definition reached fuel target

theorem dereferenceFrom_of_chain {definitionName : String}
    {chain : List String} {fuel : Nat}
    (checked : Succeeds
      (checkReferenceChain definition definitionName chain fuel schema) ⟨⟩)
    (reached : Option String) :
    Settles IsRefusal fun fuel =>
      dereferenceFrom definition reached fuel schema := by
  induction fuel generalizing schema chain reached with
  | zero => cases checked
  | succ fuel inductionHypothesis =>
      refine settles_of_succ rfl ?_
      simp only [dereferenceFrom]
      split
      · next reference held =>
        rw [checkReferenceChain, held] at checked
        simp only [Option.isNone_some, Bool.false_eq_true, if_false] at checked
        obtain ⟨name, named, checked⟩ := (succeeds_bind _ _ _).mp checked
        rw [succeeds_settled] at named
        split at checked
        · cases checked
        · obtain ⟨-, target, found⟩ := schemaRefName_ok named
          rw [found] at checked
          refine (settles_checked refuses_schemaRefName).bind
            fun other comes => ?_
          obtain ⟨_, also⟩ := comes
          rw [succeeds_settled] at also
          rw [schemaRefName_of_ok named] at also
          obtain rfl := Except.ok.inj also
          refine (settles_checked (refuses_expect found)).bind
            fun reachedTarget comes => ?_
          obtain ⟨_, also⟩ := comes
          rw [succeeds_settled, found] at also
          obtain rfl := Except.ok.inj also
          exact inductionHypothesis checked (some name)
      · exact settles_pure _

/-- The references of a definition whose chains are checked are followable. -/
theorem followable_of_checked
    (checked : Comes (fun fuel => checkReferenceChains definition fuel) ⟨⟩) :
    Followable definition := by
  intro name target found reached
  obtain ⟨fuel, succeeds⟩ := checked
  unfold checkReferenceChains at succeeds
  have present := Members.mem_of_get? (objectField_eq_some.mp found)
  have one := (succeeds_forM _ _).mp succeeds _ present
  exact dereferenceFrom_of_chain one reached

variable (followable : Followable definition)

include followable

theorem dereferenceFrom_settles (reached : Option String) (schema : Members) :
    Settles IsRefusal fun fuel =>
      dereferenceFrom definition reached fuel schema := by
  refine settles_of_succ rfl ?_
  simp only [dereferenceFrom]
  split
  · refine (settles_checked refuses_schemaRefName).bind fun name comes => ?_
    obtain ⟨_, named⟩ := comes
    rw [succeeds_settled] at named
    obtain ⟨-, target, found⟩ := schemaRefName_ok named
    refine (settles_checked (refuses_expect found)).bind fun reached comes => ?_
    obtain ⟨_, also⟩ := comes
    rw [succeeds_settled, found] at also
    obtain rfl := Except.ok.inj also
    exact followable name target found (some name)
  · exact settles_pure _

theorem dereference_settles (schema : Members) :
    Settles IsRefusal fun fuel => dereference definition fuel schema :=
  (dereferenceFrom_settles followable none schema).bind fun reached _ =>
    settles_pure reached.2

end References

end Clerkenwell.Codegen
