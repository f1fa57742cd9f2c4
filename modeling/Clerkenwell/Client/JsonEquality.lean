import Clerkenwell.Client.JsonValue
import Mathlib.Data.List.Forall2
import Mathlib.Data.List.Perm.Subperm

/-!
# The equality of JSON-shaped values is an equivalence

Objects are compared from the left: each defined member must equal the right's
of its name, and neither side may define more names.  On values that name each
member once this is symmetric and transitive.
-/

namespace Clerkenwell.Client

namespace JsValue

theorem mem_definedKeys {members : List (String × JsValue)} {key : String} :
    key ∈ definedKeys members
      ↔ (member members key).isUndefined = false := by
  rw [definedKeys, List.mem_filter, Bool.not_eq_true', and_iff_right_iff_imp]
  intro defined
  by_contra absent
  have none_found : members.lookup key = none := by
    rw [List.lookup_eq_none_iff]
    intro entry held
    rw [bne_iff_ne]
    rintro rfl
    exact absent (List.mem_map_of_mem held)
  rw [member, none_found] at defined
  cases defined

theorem nodup_definedKeys {members : List (String × JsValue)}
    (unique : (members.map Prod.fst).Nodup) : (definedKeys members).Nodup :=
  unique.filter _

/-- A defined member is one of the object's entries. -/
theorem mem_of_defined {members : List (String × JsValue)} {key : String}
    (defined : key ∈ definedKeys members) :
    (key, member members key) ∈ members := by
  rw [mem_definedKeys] at defined
  rw [member] at defined ⊢
  cases found : members.lookup key with
  | none =>
      rw [found] at defined
      cases defined
  | some value =>
      obtain ⟨before, after, rfl, -⟩ := List.lookup_eq_some_iff.mp found
      exact List.mem_append_right _ List.mem_cons_self

theorem ownMembers_of_mem_items {items : List JsValue} {item : JsValue}
    (own : OwnItems items) (held : item ∈ items) : item.OwnMembers := by
  induction items with
  | nil => cases held
  | cons first rest inductionHypothesis =>
      rcases List.mem_cons.mp held with rfl | later
      · exact own.1
      · exact inductionHypothesis own.2 later

theorem ownMembers_of_mem_entries {members : List (String × JsValue)}
    {entry : String × JsValue} (own : OwnEntries members)
    (held : entry ∈ members) : entry.2.OwnMembers := by
  induction members with
  | nil => cases held
  | cons first rest inductionHypothesis =>
      rcases List.mem_cons.mp held with rfl | later
      · exact own.1
      · exact inductionHypothesis own.2 later

theorem sizeOf_member_lt {members : List (String × JsValue)} {key : String}
    (defined : key ∈ definedKeys members) :
    sizeOf (member members key) < 1 + sizeOf members := by
  have smaller := List.sizeOf_lt_of_mem (mem_of_defined defined)
  simp only [Prod.mk.sizeOf_spec] at smaller
  omega

end JsValue

open JsValue

theorem areMembersEqual_iff {left right : List (String × JsValue)} :
    areMembersEqual left right = true
      ↔ ∀ entry ∈ left, entry.2.isUndefined = true
        ∨ (member right entry.1).isUndefined = false
          ∧ areJsonValuesEqual entry.2 (member right entry.1) = true := by
  induction left with
  | nil => simp [areMembersEqual]
  | cons entry rest inductionHypothesis =>
      obtain ⟨key, value⟩ := entry
      rw [areMembersEqual, Bool.and_eq_true, inductionHypothesis,
        List.forall_mem_cons]
      simp

/-- Objects are equal when they define the same names and equal members. -/
theorem areObjectsEqual_iff {left right : List (String × JsValue)}
    (own : (left.map Prod.fst).Nodup)
    (right_own : (right.map Prod.fst).Nodup) :
    areJsonValuesEqual (.object left) (.object right) = true
      ↔ (∀ key, key ∈ definedKeys left ↔ key ∈ definedKeys right)
        ∧ ∀ key ∈ definedKeys left,
          areJsonValuesEqual (member left key) (member right key) = true := by
  rw [areJsonValuesEqual, Bool.and_eq_true, beq_iff_eq, areMembersEqual_iff]
  constructor
  · rintro ⟨lengths, entries⟩
    have shared : ∀ key ∈ definedKeys left, key ∈ definedKeys right
        ∧ areJsonValuesEqual (member left key) (member right key) = true := by
      intro key defined
      rcases entries _ (mem_of_defined defined) with
        undefined | ⟨right_defined, equal⟩
      · exact absurd undefined (by simpa using mem_definedKeys.mp defined)
      · exact ⟨mem_definedKeys.mpr right_defined, equal⟩
    have perm : (definedKeys left).Perm (definedKeys right) :=
      ((nodup_definedKeys own).subperm
        fun key defined => (shared key defined).1).perm_of_length_le
          (Nat.le_of_eq lengths.symm)
    exact ⟨fun key => perm.mem_iff, fun key defined => (shared key defined).2⟩
  · rintro ⟨names, equal⟩
    have perm : (definedKeys left).Perm (definedKeys right) :=
      (List.perm_ext_iff_of_nodup (nodup_definedKeys own)
        (nodup_definedKeys right_own)).mpr names
    refine ⟨perm.length_eq, ?_⟩
    intro entry held
    have found := member_of_mem own held
    by_cases undefined : entry.2.isUndefined = true
    · exact .inl undefined
    · have defined : entry.1 ∈ definedKeys left := by
        rw [mem_definedKeys, found]
        simpa using undefined
      refine .inr ⟨mem_definedKeys.mp ((names _).mp defined), ?_⟩
      rw [← found]
      exact equal _ defined

mutual

theorem areJsonValuesEqual_symm : ∀ left right : JsValue,
    left.OwnMembers → right.OwnMembers →
      areJsonValuesEqual left right = true →
        areJsonValuesEqual right left = true
  | .undefined, right, _, _, same => by
      cases right <;> simp_all [areJsonValuesEqual]
  | .null, right, _, _, same => by
      cases right <;> simp_all [areJsonValuesEqual]
  | .boolean value, right, _, _, same => by
      cases right <;> simp_all [areJsonValuesEqual]
  | .number value, right, _, _, same => by
      cases right <;> simp_all [areJsonValuesEqual]
  | .string value, right, _, _, same => by
      cases right <;> simp_all [areJsonValuesEqual]
  | .array items, right, own, right_own, same => by
      cases right with
      | array others =>
          rw [areJsonValuesEqual] at same ⊢
          exact areItemsEqual_symm items others own right_own same
      | _ => simp [areJsonValuesEqual] at same
  | .object members, right, own, right_own, same => by
      cases right with
      | object others =>
          rw [areObjectsEqual_iff own.1 right_own.1] at same
          rw [areObjectsEqual_iff right_own.1 own.1]
          refine ⟨fun key => (same.1 key).symm, ?_⟩
          intro key defined
          have left_defined := (same.1 key).mpr defined
          have _smaller := sizeOf_member_lt left_defined
          exact areJsonValuesEqual_symm _ _
            (ownMembers_of_mem_entries own.2 (mem_of_defined left_defined))
            (ownMembers_of_mem_entries right_own.2 (mem_of_defined defined))
            (same.2 key left_defined)
      | _ => simp [areJsonValuesEqual] at same
termination_by left => sizeOf left

theorem areItemsEqual_symm : ∀ left right : List JsValue,
    OwnItems left → OwnItems right → areItemsEqual left right = true →
      areItemsEqual right left = true
  | [], right, _, _, same => by
      cases right <;> simp_all [areItemsEqual]
  | item :: rest, right, own, right_own, same => by
      cases right with
      | nil => simp [areItemsEqual] at same
      | cons other others =>
          rw [areItemsEqual, Bool.and_eq_true] at same ⊢
          exact ⟨areJsonValuesEqual_symm item other own.1 right_own.1 same.1,
            areItemsEqual_symm rest others own.2 right_own.2 same.2⟩
termination_by left => sizeOf left

end

mutual

theorem areJsonValuesEqual_trans : ∀ left middle right : JsValue,
    left.OwnMembers → middle.OwnMembers → right.OwnMembers →
      areJsonValuesEqual left middle = true →
        areJsonValuesEqual middle right = true →
          areJsonValuesEqual left right = true
  | .undefined, middle, right, _, _, _, same, later => by
      cases middle with
      | undefined => exact later
      | _ => simp [areJsonValuesEqual] at same
  | .null, middle, right, _, _, _, same, later => by
      cases middle with
      | null => exact later
      | _ => simp [areJsonValuesEqual] at same
  | .boolean value, middle, right, _, _, _, same, later => by
      cases middle with
      | boolean other =>
          have equal : value = other := by
            simpa [areJsonValuesEqual] using same
          exact equal ▸ later
      | _ => simp [areJsonValuesEqual] at same
  | .number value, middle, right, _, _, _, same, later => by
      cases middle with
      | number other =>
          have equal : value = other := by
            simpa [areJsonValuesEqual] using same
          exact equal ▸ later
      | _ => simp [areJsonValuesEqual] at same
  | .string value, middle, right, _, _, _, same, later => by
      cases middle with
      | string other =>
          have equal : value = other := by
            simpa [areJsonValuesEqual] using same
          exact equal ▸ later
      | _ => simp [areJsonValuesEqual] at same
  | .array items, middle, right, own, middle_own, right_own, same, later => by
      cases middle with
      | array others =>
          cases right with
          | array finals =>
              rw [areJsonValuesEqual] at same later ⊢
              exact areItemsEqual_trans items others finals own middle_own
                right_own same later
          | _ => simp [areJsonValuesEqual] at later
      | _ => simp [areJsonValuesEqual] at same
  | .object members, middle, right, own, middle_own, right_own, same,
      later => by
      cases middle with
      | object others =>
          cases right with
          | object finals =>
              rw [areObjectsEqual_iff own.1 middle_own.1] at same
              rw [areObjectsEqual_iff middle_own.1 right_own.1] at later
              rw [areObjectsEqual_iff own.1 right_own.1]
              refine ⟨fun key => (same.1 key).trans (later.1 key), ?_⟩
              intro key defined
              have middle_defined := (same.1 key).mp defined
              have right_defined := (later.1 key).mp middle_defined
              have _smaller := sizeOf_member_lt defined
              exact areJsonValuesEqual_trans _ _ _
                (ownMembers_of_mem_entries own.2 (mem_of_defined defined))
                (ownMembers_of_mem_entries middle_own.2
                  (mem_of_defined middle_defined))
                (ownMembers_of_mem_entries right_own.2
                  (mem_of_defined right_defined))
                (same.2 key defined) (later.2 key middle_defined)
          | _ => simp [areJsonValuesEqual] at later
      | _ => simp [areJsonValuesEqual] at same
termination_by left => sizeOf left

theorem areItemsEqual_trans : ∀ left middle right : List JsValue,
    OwnItems left → OwnItems middle → OwnItems right →
      areItemsEqual left middle = true → areItemsEqual middle right = true →
        areItemsEqual left right = true
  | [], middle, right, _, _, _, same, later => by
      cases middle <;> simp_all [areItemsEqual]
  | item :: rest, middle, right, own, middle_own, right_own, same, later => by
      cases middle with
      | nil => simp [areItemsEqual] at same
      | cons other others =>
          cases right with
          | nil => simp [areItemsEqual] at later
          | cons final finals =>
              rw [areItemsEqual, Bool.and_eq_true] at same later ⊢
              exact ⟨areJsonValuesEqual_trans item other final own.1
                  middle_own.1 right_own.1 same.1 later.1,
                areItemsEqual_trans rest others finals own.2 middle_own.2
                  right_own.2 same.2 later.2⟩
termination_by left => sizeOf left

end

end Clerkenwell.Client
