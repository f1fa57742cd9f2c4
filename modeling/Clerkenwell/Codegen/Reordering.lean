import Clerkenwell.Codegen.Json
import Clerkenwell.Foundation.StableSort

/-!
# Reordering the members of objects

Two values are reorderings of each other when their objects hold the same keys,
at every depth, in whatever order.
-/

namespace Clerkenwell.Codegen

open Clerkenwell.Foundation

mutual

/-- A value whose objects are all in the order objects keep. -/
def Json.WellFormed : Json → Prop
  | .array items => WellFormedItems items
  | .object members => Members.Ordered members ∧ WellFormedMembers members
  | _ => True

def WellFormedItems : List Json → Prop
  | [] => True
  | item :: rest => item.WellFormed ∧ WellFormedItems rest

def WellFormedMembers : List (String × Json) → Prop
  | [] => True
  | (_, value) :: rest => value.WellFormed ∧ WellFormedMembers rest

end

instance : (earlier later : Option Nat) → Decidable (indexBefore earlier later)
  | some index, some next => inferInstanceAs (Decidable (index < next))
  | some _, none => .isTrue trivial
  | none, some _ => .isFalse id
  | none, none => .isTrue trivial

instance : DecidableRel indexedBefore := fun earlier later =>
  inferInstanceAs (Decidable (indexBefore (arrayIndex earlier) (arrayIndex later)))

instance (members : Members) : Decidable members.Ordered :=
  decidable_of_iff
    (members.keys.Nodup ∧ members.keys.Pairwise indexedBefore)
    ⟨fun both => ⟨both.1, both.2⟩, fun ordered => ⟨ordered.nodup, ordered.indexed⟩⟩

mutual

instance decidableWellFormed : (value : Json) → Decidable value.WellFormed
  | .null | .bool _ | .number _ | .string _ => .isTrue trivial
  | .array items => decidableWellFormedItems items
  | .object members =>
      have := decidableWellFormedMembers members
      inferInstanceAs
        (Decidable (Members.Ordered members ∧ WellFormedMembers members))

instance decidableWellFormedItems :
    (items : List Json) → Decidable (WellFormedItems items)
  | [] => .isTrue trivial
  | item :: rest =>
      have := decidableWellFormed item
      have := decidableWellFormedItems rest
      inferInstanceAs (Decidable (item.WellFormed ∧ WellFormedItems rest))

instance decidableWellFormedMembers :
    (members : List (String × Json)) → Decidable (WellFormedMembers members)
  | [] => .isTrue trivial
  | (_, value) :: rest =>
      have := decidableWellFormed value
      have := decidableWellFormedMembers rest
      inferInstanceAs (Decidable (value.WellFormed ∧ WellFormedMembers rest))

end

mutual

/-- The members of a value's objects are another's, at every depth. -/
inductive Reordered : Json → Json → Prop where
  | null : Reordered .null .null
  | bool (value : Bool) : Reordered (.bool value) (.bool value)
  | number (value : Dyadic) : Reordered (.number value) (.number value)
  | string (value : String) : Reordered (.string value) (.string value)
  | array {items others : List Json} :
      ReorderedItems items others → Reordered (.array items) (.array others)
  | object {members middle others : List (String × Json)} :
      ReorderedMembers members middle → middle.Perm others →
        Reordered (.object members) (.object others)

inductive ReorderedItems : List Json → List Json → Prop where
  | nil : ReorderedItems [] []
  | cons {item other : Json} {rest others : List Json} :
      Reordered item other → ReorderedItems rest others →
        ReorderedItems (item :: rest) (other :: others)

/-- Members under the same keys, each value a reordering of the other. -/
inductive ReorderedMembers :
    List (String × Json) → List (String × Json) → Prop where
  | nil : ReorderedMembers [] []
  | cons {key : String} {value other : Json}
      {rest others : List (String × Json)} :
      Reordered value other → ReorderedMembers rest others →
        ReorderedMembers ((key, value) :: rest) ((key, other) :: others)

end

mutual

theorem Reordered.refl : ∀ value : Json, Reordered value value
  | .null => .null
  | .bool value => .bool value
  | .number value => .number value
  | .string value => .string value
  | .array items => .array (ReorderedItems.refl items)
  | .object members =>
      .object (ReorderedMembers.refl members) (List.Perm.refl members)

theorem ReorderedItems.refl : ∀ items : List Json, ReorderedItems items items
  | [] => .nil
  | item :: rest => .cons (Reordered.refl item) (ReorderedItems.refl rest)

theorem ReorderedMembers.refl :
    ∀ members : List (String × Json), ReorderedMembers members members
  | [] => .nil
  | (_, value) :: rest =>
      .cons (Reordered.refl value) (ReorderedMembers.refl rest)

end

/-! ## Members of a reordered object -/

theorem wellFormedItems_iff (items : List Json) :
    WellFormedItems items ↔ ∀ item ∈ items, item.WellFormed := by
  induction items with
  | nil => simp [WellFormedItems]
  | cons item rest inductionHypothesis =>
      simp [WellFormedItems, inductionHypothesis]

theorem wellFormedMembers_iff (members : Members) :
    WellFormedMembers members ↔ ∀ member ∈ members, member.2.WellFormed := by
  induction members with
  | nil => simp [WellFormedMembers]
  | cons member rest inductionHypothesis =>
      simp [WellFormedMembers, inductionHypothesis]

theorem Json.WellFormed.ordered {members : Members}
    (wellFormed : (Json.object members).WellFormed) : members.Ordered := by
  unfold Json.WellFormed at wellFormed
  exact wellFormed.1

theorem Json.WellFormed.member {members : Members}
    (wellFormed : (Json.object members).WellFormed) {key : String} {value : Json}
    (held : members.get? key = some value) : value.WellFormed := by
  have within := (Members.get?_eq_some_iff wellFormed.ordered.nodup key value).mp
    held
  unfold Json.WellFormed at wellFormed
  exact (wellFormedMembers_iff members).mp wellFormed.2 _ within

theorem ReorderedMembers.keys {members others : Members}
    (reordered : ReorderedMembers members others) :
    Members.keys others = Members.keys members := by
  induction members generalizing others with
  | nil =>
      cases reordered
      rfl
  | cons member rest inductionHypothesis =>
      cases reordered with
      | cons _ later =>
          rw [Members.keys_cons, Members.keys_cons, inductionHypothesis later]

theorem ReorderedMembers.append {members others rest lasts : Members}
    (first : ReorderedMembers members others)
    (last : ReorderedMembers rest lasts) :
    ReorderedMembers (members ++ rest) (others ++ lasts) := by
  induction members generalizing others with
  | nil =>
      cases first
      exact last
  | cons member members inductionHypothesis =>
      cases first with
      | cons head tail => exact .cons head (inductionHypothesis tail)

theorem reorderedItems_replace {earlier later : List Json} {item other : Json}
    (alike : Reordered item other) :
    ReorderedItems (earlier ++ item :: later) (earlier ++ other :: later) := by
  induction earlier with
  | nil => exact .cons alike (ReorderedItems.refl later)
  | cons first rest inductionHypothesis =>
      exact .cons (Reordered.refl first) inductionHypothesis

theorem ReorderedMembers.mem {members others : Members}
    (reordered : ReorderedMembers members others) {key : String} {value : Json}
    (within : (key, value) ∈ members) :
    ∃ other, (key, other) ∈ others ∧ Reordered value other := by
  induction members generalizing others with
  | nil => simp at within
  | cons member rest inductionHypothesis =>
      cases reordered with
      | cons head tail =>
          rcases List.mem_cons.mp within with same | later
          · obtain ⟨rfl, rfl⟩ := Prod.mk.inj same
            exact ⟨_, List.mem_cons_self, head⟩
          · obtain ⟨other, held, alike⟩ := inductionHypothesis tail later
            exact ⟨other, List.mem_cons_of_mem _ held, alike⟩

section Object

variable {members others : Members}

theorem Reordered.keys
    (reordered : Reordered (.object members) (.object others)) :
    members.keys.Perm others.keys := by
  cases reordered with
  | object alike same =>
      rw [← alike.keys]
      exact same.map Prod.fst

/-- A reordered object holds a reordering of each member. -/
theorem Reordered.get?
    (reordered : Reordered (.object members) (.object others))
    (nodup : members.keys.Nodup) {key : String} {value : Json}
    (held : members.get? key = some value) :
    ∃ other, others.get? key = some other ∧ Reordered value other := by
  have others_nodup := reordered.keys.nodup_iff.mp nodup
  cases reordered with
  | object alike same =>
      obtain ⟨other, within, related⟩ :=
        alike.mem ((Members.get?_eq_some_iff nodup key value).mp held)
      exact ⟨other, (Members.get?_eq_some_iff others_nodup key other).mpr
        (same.mem_iff.mp within), related⟩

theorem Reordered.get?_back
    (reordered : Reordered (.object members) (.object others))
    (nodup : members.keys.Nodup) {key : String} {other : Json}
    (held : others.get? key = some other) :
    ∃ value, members.get? key = some value ∧ Reordered value other := by
  cases there : members.get? key with
  | none =>
      have absent := (Members.get?_eq_none_iff members key).mp there
      rw [(Members.get?_eq_none_iff others key).mpr fun within =>
        absent (reordered.keys.mem_iff.mpr within)] at held
      simp at held
  | some value =>
      obtain ⟨found, other_held, alike⟩ := reordered.get? nodup there
      rw [held, Option.some.injEq] at other_held
      exact ⟨value, rfl, other_held ▸ alike⟩

/-- Objects are reorderings of each other where each of their members is. -/
theorem reordered_object_iff (nodup : members.keys.Nodup)
    (others_nodup : others.keys.Nodup) :
    Reordered (.object members) (.object others)
      ↔ ∀ key, Option.Rel Reordered (members.get? key) (others.get? key) := by
  constructor
  · intro reordered key
    cases held : members.get? key with
    | none =>
        have absent : key ∉ others.keys := fun within =>
          (Members.get?_eq_none_iff members key).mp held
            (reordered.keys.mem_iff.mpr within)
        rw [(Members.get?_eq_none_iff others key).mpr absent]
        exact .none
    | some value =>
        obtain ⟨other, found, alike⟩ := reordered.get? nodup held
        rw [found]
        exact .some alike
  · intro related
    let middle := members.map fun member =>
      (member.1, (others.get? member.1).getD .null)
    have middle_keys : Members.keys middle = members.keys := by
      simp [middle, Members.keys, Function.comp_def]
    have alike : ReorderedMembers members middle := by
      have each : ∀ member ∈ members,
          Reordered member.2 ((others.get? member.1).getD .null) := by
        intro member within
        have held := (Members.get?_eq_some_iff nodup member.1 member.2).mpr
          within
        have relation := related member.1
        rw [held] at relation
        cases found : others.get? member.1 with
        | none => rw [found] at relation; cases relation
        | some other =>
            rw [found] at relation
            cases relation with
            | some alike => exact alike
      have general : ∀ list : Members, (∀ member ∈ list,
          Reordered member.2 ((others.get? member.1).getD .null)) →
            ReorderedMembers list (list.map fun member =>
              (member.1, (others.get? member.1).getD .null)) := by
        intro list
        induction list with
        | nil => exact fun _ => .nil
        | cons member rest inductionHypothesis =>
            intro holds
            exact .cons (holds member List.mem_cons_self)
              (inductionHypothesis fun other within =>
                holds other (List.mem_cons_of_mem _ within))
      exact general members each
    have middle_nodup : (Members.keys middle).Nodup := by rwa [middle_keys]
    refine .object alike (Members.perm_of_get? middle_nodup others_nodup ?_)
    intro key
    have relation := related key
    cases held : members.get? key with
    | none =>
        have absent : key ∉ Members.keys middle := by
          rw [middle_keys]
          exact (Members.get?_eq_none_iff members key).mp held
        rw [held] at relation
        cases found : others.get? key with
        | some _ => rw [found] at relation; cases relation
        | none => exact (Members.get?_eq_none_iff middle key).mpr absent
    | some value =>
        have within := (Members.get?_eq_some_iff nodup key value).mp held
        have mapped : (key, (others.get? key).getD .null) ∈ middle :=
          List.mem_map.mpr ⟨(key, value), within, rfl⟩
        rw [(Members.get?_eq_some_iff middle_nodup key _).mpr mapped]
        rw [held] at relation
        cases found : others.get? key with
        | none => rw [found] at relation; cases relation
        | some _ => rfl

/-- A reordered value of an object is an object. -/
theorem Reordered.asObject {value other : Json}
    (reordered : Reordered value other) (held : value.asObject = some members) :
    ∃ others, other = .object others
      ∧ Reordered (.object members) (.object others) := by
  cases reordered with
  | object alike same =>
      obtain rfl := Option.some.inj held
      exact ⟨_, rfl, .object alike same⟩
  | _ => simp [Json.asObject] at held

/-- A member's value changes for a reordering of it. -/
theorem reordered_replace {earlier later : Members} {key : String}
    {value other : Json} (alike : Reordered value other) :
    Reordered (.object (earlier ++ (key, value) :: later))
      (.object (earlier ++ (key, other) :: later)) :=
  .object
    ((ReorderedMembers.refl earlier).append
      (.cons alike (ReorderedMembers.refl later)))
    (List.Perm.refl _)

end Object

end Clerkenwell.Codegen
