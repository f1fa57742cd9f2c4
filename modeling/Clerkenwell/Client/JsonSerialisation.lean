import Clerkenwell.Client.Acknowledgement
import Clerkenwell.Codegen.JsonReading

/-!
# Equality and serialisation

Persistence and the server see a document as `JSON.stringify` writes it: a
member that holds `undefined` is left out, an item that does is `null`, and so
is a number that is not finite; the two zeros are written alike.

`areJsonValuesEqual` tells more apart.  Where it differs from what is written
is said place by place.
-/

namespace Clerkenwell.Client

open Clerkenwell.Codegen (Json Members Reordered ReorderedItems
  ReorderedMembers ReadsBack Scientific)

/-! ## What is written -/

/-- A number as JSON holds it. -/
def JsNumber.serialised : JsNumber → Json
  | .nan => .null
  | .infinity _ => .null
  | .negativeZero => .number 0
  | .finite value => .number value

namespace JsValue

mutual

/-- What is written of a value, nothing of `undefined`. -/
def serialised : JsValue → Option Json
  | .undefined => none
  | .null => some .null
  | .boolean value => some (.bool value)
  | .number value => some value.serialised
  | .string value => some (.string value)
  | .array items => some (.array (serialisedItems items))
  | .object members =>
      some (.object (Members.ofMembers (serialisedMembers members)))

/-- The items of an array, `null` where one is `undefined`. -/
def serialisedItems : List JsValue → List Json
  | [] => []
  | item :: rest => item.serialised.getD .null :: serialisedItems rest

/-- The members of an object but those that hold `undefined`. -/
def serialisedMembers : List (String × JsValue) → List (String × Json)
  | [] => []
  | (key, value) :: rest =>
      match value.serialised with
      | none => serialisedMembers rest
      | some json => (key, json) :: serialisedMembers rest

end

/-- `JSON.stringify(value)`. -/
def stringify (scientific : Scientific) (value : JsValue) : Option (List Char) :=
  value.serialised.map (Codegen.Json.stringify scientific)

/-- Whether every number written of a value is one its text reads back as. -/
def NumbersReadBack (nearest : ℚ → Option Dyadic) (scientific : Scientific)
    (value : JsValue) : Prop :=
  ∀ json, value.serialised = some json →
    json.EachNumber (ReadsBack nearest scientific)

/-- Whether two values serialise to the same JSON up to member order. -/
def SerialiseAlike (scientific : Scientific) (left right : JsValue) : Prop :=
  match left.serialised with
  | none => right.stringify scientific = none
  | some json => ∃ reordered, Reordered json reordered
      ∧ right.stringify scientific
        = some (Codegen.Json.stringify scientific reordered)

/-! ## What is written alike -/

/-- What is written of a value where it stands, an item or not. -/
def written (isItem : Bool) (value : JsValue) : Option Json :=
  if isItem then some (value.serialised.getD .null) else value.serialised

/-- Whether a value is written `null` where it stands. -/
def writtenNull (isItem : Bool) : JsValue → Bool
  | .undefined => isItem
  | .null => true
  | .number .nan => true
  | .number (.infinity _) => true
  | _ => false

/-- Whether a value is one of the two zeros. -/
def isZero : JsValue → Bool
  | .number .negativeZero => true
  | .number (.finite value) => value = 0
  | _ => false

/--
Whether two values differ, at some place both reach, in one zero for the other
or in one value that is written `null` for another.
-/
inductive Confused : Bool → JsValue → JsValue → Prop where
  | null {isItem : Bool} {left right : JsValue} :
      left ≠ right → left.writtenNull isItem → right.writtenNull isItem →
        Confused isItem left right
  | zero {isItem : Bool} {left right : JsValue} :
      left ≠ right → left.isZero → right.isZero → Confused isItem left right
  | item {isItem : Bool} {items others : List JsValue} {left right : JsValue}
      (index : Nat) :
      items[index]? = some left → others[index]? = some right →
        Confused true left right →
          Confused isItem (.array items) (.array others)
  | member {isItem : Bool} {members others : List (String × JsValue)}
      (key : String) :
      key ∈ definedKeys members → key ∈ definedKeys others →
        Confused false (member members key) (member others key) →
          Confused isItem (.object members) (.object others)

/-! ## What is written of a member -/

theorem serialised_eq_none_iff {value : JsValue} :
    value.serialised = none ↔ value.isUndefined = true := by
  cases value <;> simp [serialised, isUndefined]

theorem serialisedMembers_cons (key : String) (value : JsValue)
    (rest : List (String × JsValue)) :
    serialisedMembers ((key, value) :: rest)
      = value.serialised.toList.map (fun json => (key, json))
        ++ serialisedMembers rest := by
  rw [serialisedMembers]
  cases value.serialised <;> rfl

theorem keys_serialisedMembers_sublist (members : List (String × JsValue)) :
    (Members.keys (serialisedMembers members)).Sublist
      (members.map Prod.fst) := by
  induction members with
  | nil => exact List.Sublist.refl _
  | cons member rest inductionHypothesis =>
      obtain ⟨key, value⟩ := member
      rw [serialisedMembers_cons]
      cases value.serialised with
      | none => exact inductionHypothesis.cons key
      | some json => exact inductionHypothesis.cons_cons key

/-- What is written under a name is what is written of the member. -/
theorem get?_serialisedMembers {members : List (String × JsValue)}
    (own : (members.map Prod.fst).Nodup) (key : String) :
    Members.get? (serialisedMembers members) key
      = (member members key).serialised := by
  induction members with
  | nil => rfl
  | cons entry rest inductionHypothesis =>
      obtain ⟨name, value⟩ := entry
      rw [List.map_cons, List.nodup_cons] at own
      have later := inductionHypothesis own.2
      rw [serialisedMembers_cons, member, List.lookup_cons]
      by_cases same : key = name
      · subst same
        rw [beq_self_eq_true]
        cases written : value.serialised with
        | none =>
            have absent : key ∉ Members.keys (serialisedMembers rest) :=
              fun within =>
                own.1 ((keys_serialisedMembers_sublist rest).subset within)
            simpa [written]
              using (Members.get?_eq_none_iff _ key).mpr absent
        | some json => simp [Members.get?, written]
      · rw [beq_eq_false_iff_ne.mpr same]
        rw [member] at later
        cases value.serialised with
        | none => exact later
        | some json =>
            change Members.get? ((name, json) :: serialisedMembers rest) key = _
            rw [Members.get?_cons, if_neg same]
            exact later

section Object

variable {members others : List (String × JsValue)}

theorem nodup_serialisedMembers (own : (members.map Prod.fst).Nodup) :
    (Members.keys (serialisedMembers members)).Nodup :=
  own.sublist (keys_serialisedMembers_sublist members)

/-- Objects are written alike where each of their members is. -/
theorem reordered_serialisedMembers (own : (members.map Prod.fst).Nodup)
    (others_own : (others.map Prod.fst).Nodup) :
    Reordered
        (.object (Members.ofMembers (serialisedMembers members)))
        (.object (Members.ofMembers (serialisedMembers others)))
      ↔ ∀ key, Option.Rel Reordered (member members key).serialised
        (member others key).serialised := by
  have nodup := nodup_serialisedMembers own
  have others_nodup := nodup_serialisedMembers others_own
  rw [Codegen.reordered_object_iff (Members.ordered_ofMembers _).nodup
    (Members.ordered_ofMembers _).nodup]
  simp only [Members.get?_ofMembers nodup, Members.get?_ofMembers others_nodup,
    get?_serialisedMembers own, get?_serialisedMembers others_own]

end Object

/-! ## Equality, place by place -/

/-- Whether two values are written alike where they stand. -/
def Alike (isItem : Bool) (left right : JsValue) : Prop :=
  Option.Rel Reordered (left.written isItem) (right.written isItem)

theorem serialised_not_item (value : JsValue) :
    value.written false = value.serialised :=
  rfl

theorem alike_items_cons {left right : JsValue} {lefts rights : List JsValue} :
    ReorderedItems (serialisedItems (left :: lefts))
        (serialisedItems (right :: rights))
      ↔ Alike true left right
        ∧ ReorderedItems (serialisedItems lefts) (serialisedItems rights) := by
  rw [serialisedItems, serialisedItems]
  constructor
  · rintro (_ | ⟨first, others⟩)
    exact ⟨.some first, others⟩
  · rintro ⟨⟨first⟩, others⟩
    exact .cons first others

/-- Whether a value holds no other. -/
def isLeaf : JsValue → Bool
  | .array _ => false
  | .object _ => false
  | _ => true

/-- Leaves are equal as they are the same. -/
theorem areJsonValuesEqual_leaf {left : JsValue} (leaf : left.isLeaf = true)
    (right : JsValue) :
    areJsonValuesEqual left right = true ↔ left = right := by
  cases left <;> cases right <;> simp_all [areJsonValuesEqual, isLeaf]

theorem reordered_leaf {json other : Json}
    (leaf : ∀ items, json ≠ .array items)
    (no_members : ∀ members, json ≠ .object members) :
    Reordered json other ↔ json = other := by
  constructor
  · intro reordered
    cases reordered with
    | array _ => exact absurd rfl (leaf _)
    | object _ _ => exact absurd rfl (no_members _)
    | _ => rfl
  · rintro rfl
    exact Codegen.Reordered.refl json

theorem written_leaf {value : JsValue} (leaf : value.isLeaf = true)
    {isItem : Bool} {json : Json} (given : value.written isItem = some json) :
    (∀ items, json ≠ .array items) ∧ ∀ members, json ≠ .object members := by
  have either : value.serialised = some json ∨ json = .null := by
    cases isItem with
    | false => exact .inl given
    | true =>
        have same : value.serialised.getD .null = json := Option.some.inj given
        cases found : value.serialised with
        | none => exact .inr (by rw [← same, found]; rfl)
        | some other => exact .inl (by rw [← same, found]; rfl)
  rcases either with found | rfl
  · cases value with
    | array _ => cases leaf
    | object _ => cases leaf
    | number number =>
        obtain rfl := Option.some.inj found
        cases number <;> simp [JsNumber.serialised]
    | _ => simp_all [serialised] <;> subst found <;> simp
  · simp

/-- A leaf is written alike where the same is written. -/
theorem alike_leaf_iff {left : JsValue} (leaf : left.isLeaf = true)
    (isItem : Bool) (right : JsValue) :
    Alike isItem left right ↔ left.written isItem = right.written isItem := by
  unfold Alike
  cases given : left.written isItem with
  | none =>
      cases right.written isItem with
      | none => exact ⟨fun _ => rfl, fun _ => .none⟩
      | some _ => exact ⟨nofun, nofun⟩
  | some json =>
      obtain ⟨no_items, no_members⟩ := written_leaf leaf given
      cases right.written isItem with
      | none => exact ⟨nofun, nofun⟩
      | some other =>
          rw [Option.some.injEq, ← reordered_leaf no_items no_members]
          constructor
          · rintro ⟨alike⟩
            exact alike
          · exact .some

/-- Different leaves are written alike as `null` or as zero only. -/
theorem alike_leaf {left : JsValue} (leaf : left.isLeaf = true)
    (isItem : Bool) (right : JsValue) :
    Alike isItem left right
      ↔ left = right
        ∨ (left.writtenNull isItem = true ∧ right.writtenNull isItem = true)
        ∨ (left.isZero = true ∧ right.isZero = true) := by
  rw [alike_leaf_iff leaf]
  cases left with
  | array _ => cases leaf
  | object _ => cases leaf
  | number number =>
      cases right with
      | number other =>
          cases isItem <;> cases number <;> cases other <;>
            simp [written, serialised, JsNumber.serialised, writtenNull, isZero,
              eq_comm]
          all_goals exact fun first second => first.trans second.symm
      | _ =>
          cases isItem <;> cases number <;>
            simp [written, serialised, JsNumber.serialised, writtenNull, isZero]
  | _ =>
      cases right with
      | number other =>
          cases isItem <;> cases other <;>
            simp [written, serialised, JsNumber.serialised, writtenNull, isZero]
      | _ =>
          cases isItem <;>
            simp [written, serialised, writtenNull, isZero]

theorem confused_leaf {left right : JsValue} (leaf : left.isLeaf = true)
    {isItem : Bool} :
    Confused isItem left right
      ↔ left ≠ right
        ∧ ((left.writtenNull isItem = true ∧ right.writtenNull isItem = true)
          ∨ (left.isZero = true ∧ right.isZero = true)) := by
  constructor
  · rintro (⟨different, null, also⟩ | ⟨different, zero, also⟩ | _ | _)
    · exact ⟨different, .inl ⟨null, also⟩⟩
    · exact ⟨different, .inr ⟨zero, also⟩⟩
    · cases leaf
    · cases leaf
  · rintro ⟨different, ⟨null, also⟩ | ⟨zero, also⟩⟩
    · exact .null different null also
    · exact .zero different zero also

/-- A leaf is equal to what it is written like and not confused with. -/
theorem areJsonValuesEqual_leaf_iff {left : JsValue}
    (leaf : left.isLeaf = true) (isItem : Bool) (right : JsValue) :
    areJsonValuesEqual left right = true
      ↔ Alike isItem left right ∧ ¬Confused isItem left right := by
  rw [areJsonValuesEqual_leaf leaf, alike_leaf leaf, confused_leaf leaf]
  constructor
  · rintro rfl
    exact ⟨.inl rfl, fun ⟨different, _⟩ => different rfl⟩
  · rintro ⟨same | alike, apart⟩
    · exact same
    · by_contra different
      exact apart ⟨different, alike⟩

theorem not_alike_leaf {left right : JsValue} (container : left.isLeaf = false)
    (leaf : right.isLeaf = true) (isItem : Bool) :
    ¬Alike isItem left right := by
  intro alike
  have held : ∃ json, left.written isItem = some json
      ∧ ((∃ items, json = .array items)
        ∨ ∃ members, json = .object members) := by
    cases left with
    | array items => cases isItem <;> exact ⟨_, rfl, .inl ⟨_, rfl⟩⟩
    | object members => cases isItem <;> exact ⟨_, rfl, .inr ⟨_, rfl⟩⟩
    | _ => cases container
  obtain ⟨json, given, kind⟩ := held
  unfold Alike at alike
  rw [given] at alike
  cases also : right.written isItem with
  | none => rw [also] at alike; cases alike
  | some other =>
      obtain ⟨no_items, no_members⟩ := written_leaf leaf also
      rw [also] at alike
      obtain ⟨reordered⟩ := alike
      rcases kind with ⟨items, rfl⟩ | ⟨members, rfl⟩
      · cases reordered with
        | array _ => exact no_items _ rfl
      · cases reordered with
        | object _ _ => exact no_members _ rfl

/-- Whether two items of one position are confused. -/
def ConfusedItems (items others : List JsValue) : Prop :=
  ∃ (index : Nat) (left right : JsValue), items[index]? = some left
    ∧ others[index]? = some right ∧ Confused true left right

theorem confusedItems_cons {left right : JsValue}
    {lefts rights : List JsValue} :
    ConfusedItems (left :: lefts) (right :: rights)
      ↔ Confused true left right ∨ ConfusedItems lefts rights := by
  constructor
  · rintro ⟨index, first, other, held, found, confused⟩
    cases index with
    | zero =>
        obtain rfl := Option.some.inj held
        obtain rfl := Option.some.inj found
        exact .inl confused
    | succ index => exact .inr ⟨index, first, other, held, found, confused⟩
  · rintro (confused | ⟨index, first, other, held, found, confused⟩)
    · exact ⟨0, left, right, rfl, rfl, confused⟩
    · exact ⟨index + 1, first, other, held, found, confused⟩

theorem confused_items_iff {isItem : Bool} {items others : List JsValue} :
    Confused isItem (.array items) (.array others)
      ↔ ConfusedItems items others := by
  constructor
  · rintro (⟨_, null, _⟩ | ⟨_, zero, _⟩ | ⟨index, held, found, confused⟩)
    · cases null
    · cases zero
    · exact ⟨index, _, _, held, found, confused⟩
  · rintro ⟨index, left, right, held, found, confused⟩
    exact .item index held found confused

theorem confused_members_iff {isItem : Bool}
    {members others : List (String × JsValue)} :
    Confused isItem (.object members) (.object others)
      ↔ ∃ key ∈ definedKeys members, key ∈ definedKeys others
        ∧ Confused false (member members key) (member others key) := by
  constructor
  · rintro (⟨_, null, _⟩ | ⟨_, zero, _⟩ | _ | ⟨key, held, found, confused⟩)
    · cases null
    · cases zero
    · exact ⟨key, held, found, confused⟩
  · rintro ⟨key, held, found, confused⟩
    exact .member key held found confused

theorem alike_arrays {isItem : Bool} {items others : List JsValue} :
    Alike isItem (.array items) (.array others)
      ↔ ReorderedItems (serialisedItems items) (serialisedItems others) := by
  constructor
  · intro alike
    cases isItem <;>
      cases alike with
      | some reordered =>
          cases reordered with
          | array same => exact same
  · intro same
    cases isItem <;> exact .some (.array same)

theorem alike_objects {isItem : Bool}
    {members others : List (String × JsValue)}
    (own : (members.map Prod.fst).Nodup)
    (others_own : (others.map Prod.fst).Nodup) :
    Alike isItem (.object members) (.object others)
      ↔ ∀ key, Alike false (member members key) (member others key) := by
  refine Iff.trans ?_ (reordered_serialisedMembers own others_own)
  constructor
  · cases isItem <;> rintro ⟨same⟩ <;> exact same
  · intro same
    cases isItem <;> exact .some same

/-- Members that are written alike are both defined or neither. -/
theorem defined_of_alike {left right : JsValue} (alike : Alike false left right) :
    left.isUndefined = right.isUndefined := by
  have none_iff : left.serialised = none ↔ right.serialised = none := by
    unfold Alike at alike
    rw [serialised_not_item, serialised_not_item] at alike
    generalize left.serialised = one at alike
    generalize right.serialised = other at alike
    cases alike <;> simp
  rw [serialised_eq_none_iff, serialised_eq_none_iff] at none_iff
  exact Bool.eq_iff_iff.mpr none_iff

theorem alike_undefined {left right : JsValue}
    (undefined : left.isUndefined = true)
    (also : right.isUndefined = true) : Alike false left right := by
  unfold Alike
  rw [serialised_not_item, serialised_not_item,
    serialised_eq_none_iff.mpr undefined, serialised_eq_none_iff.mpr also]
  exact .none

mutual

/--
Two values are equal where they are written alike and at no place differ in one
zero for another or in one value written `null` for another.
-/
theorem areJsonValuesEqual_iff : ∀ (left right : JsValue) (isItem : Bool),
    left.OwnMembers → right.OwnMembers →
      (areJsonValuesEqual left right = true
        ↔ Alike isItem left right ∧ ¬Confused isItem left right)
  | .array items, right, isItem, own, right_own => by
      cases right with
      | array others =>
          rw [areJsonValuesEqual, alike_arrays, confused_items_iff]
          exact areItemsEqual_iff items others own right_own
      | object members =>
          have apart : ¬Alike isItem (.array items) (.object members) := by
            cases isItem <;> rintro ⟨_ | _⟩
          simp [areJsonValuesEqual, apart]
      | _ =>
          exact iff_of_false (by simp [areJsonValuesEqual])
            fun alike => not_alike_leaf rfl rfl isItem alike.1
  | .object members, right, isItem, own, right_own => by
      cases right with
      | object others =>
          have each : ∀ key ∈ definedKeys members, key ∈ definedKeys others →
              (areJsonValuesEqual (member members key) (member others key) = true
                ↔ Alike false (member members key) (member others key)
                  ∧ ¬Confused false (member members key)
                    (member others key)) := by
            intro key defined other_defined
            have _smaller := sizeOf_member_lt defined
            exact areJsonValuesEqual_iff _ _ false
              (ownMembers_of_mem_entries own.2 (mem_of_defined defined))
              (ownMembers_of_mem_entries right_own.2
                (mem_of_defined other_defined))
          rw [areObjectsEqual_iff own.1 right_own.1,
            alike_objects own.1 right_own.1, confused_members_iff]
          constructor
          · rintro ⟨names, equal⟩
            constructor
            · intro key
              by_cases defined : key ∈ definedKeys members
              · exact ((each key defined ((names key).mp defined)).mp
                  (equal key defined)).1
              · have other_defined : ¬key ∈ definedKeys others := fun held =>
                  defined ((names key).mpr held)
                rw [mem_definedKeys, Bool.not_eq_false] at defined
                rw [mem_definedKeys, Bool.not_eq_false] at other_defined
                exact alike_undefined defined other_defined
            · rintro ⟨key, defined, other_defined, confused⟩
              exact ((each key defined other_defined).mp
                (equal key defined)).2 confused
          · rintro ⟨alike, apart⟩
            have names : ∀ key,
                key ∈ definedKeys members ↔ key ∈ definedKeys others := by
              intro key
              rw [mem_definedKeys, mem_definedKeys, defined_of_alike (alike key)]
            refine ⟨names, fun key defined => ?_⟩
            have other_defined := (names key).mp defined
            exact (each key defined other_defined).mpr ⟨alike key,
              fun confused => apart ⟨key, defined, other_defined, confused⟩⟩
      | array items =>
          have apart : ¬Alike isItem (.object members) (.array items) := by
            cases isItem <;> rintro ⟨_ | _⟩
          simp [areJsonValuesEqual, apart]
      | _ =>
          exact iff_of_false (by simp [areJsonValuesEqual])
            fun alike => not_alike_leaf rfl rfl isItem alike.1
  | .undefined, right, isItem, _, _ => areJsonValuesEqual_leaf_iff rfl isItem right
  | .null, right, isItem, _, _ => areJsonValuesEqual_leaf_iff rfl isItem right
  | .boolean _, right, isItem, _, _ => areJsonValuesEqual_leaf_iff rfl isItem right
  | .number _, right, isItem, _, _ => areJsonValuesEqual_leaf_iff rfl isItem right
  | .string _, right, isItem, _, _ => areJsonValuesEqual_leaf_iff rfl isItem right
termination_by left => sizeOf left

theorem areItemsEqual_iff : ∀ lefts rights : List JsValue,
    OwnItems lefts → OwnItems rights →
      (areItemsEqual lefts rights = true
        ↔ ReorderedItems (serialisedItems lefts) (serialisedItems rights)
          ∧ ¬ConfusedItems lefts rights)
  | [], [], _, _ => by
      simp [areItemsEqual, serialisedItems, ReorderedItems.nil, ConfusedItems]
  | [], _ :: _, _, _ => ⟨nofun, fun ⟨reordered, _⟩ => nomatch reordered⟩
  | _ :: _, [], _, _ => ⟨nofun, fun ⟨reordered, _⟩ => nomatch reordered⟩
  | left :: lefts, right :: rights, own, right_own => by
      rw [areItemsEqual, Bool.and_eq_true,
        areJsonValuesEqual_iff left right true own.1 right_own.1,
        areItemsEqual_iff lefts rights own.2 right_own.2, alike_items_cons,
        confusedItems_cons, not_or]
      exact and_and_and_comm
termination_by lefts => sizeOf lefts

end

/-! ## The texts -/

section Texts

variable {nearest : ℚ → Option Dyadic} {scientific : Scientific}

/-- The texts are alike where what is written is. -/
theorem serialiseAlike_iff {left right : JsValue}
    (reads : left.NumbersReadBack nearest scientific)
    (right_reads : right.NumbersReadBack nearest scientific) :
    SerialiseAlike scientific left right ↔ Alike false left right := by
  unfold SerialiseAlike Alike stringify
  rw [serialised_not_item, serialised_not_item]
  cases written : left.serialised with
  | none =>
      cases right.serialised with
      | none => exact ⟨fun _ => .none, fun _ => rfl⟩
      | some _ => exact ⟨nofun, nofun⟩
  | some json =>
      cases right_written : right.serialised with
      | none =>
          constructor
          · rintro ⟨_, _, text⟩
            cases text
          · rintro ⟨⟩
      | some other =>
          have each := reads json written
          have also := right_reads other right_written
          constructor
          · rintro ⟨reordered, alike, text⟩
            have same := Codegen.stringify_inj also (each.reordered alike)
              (Option.some.inj text)
            exact .some (same ▸ alike)
          · rintro ⟨alike⟩
            exact ⟨other, alike, rfl⟩

end Texts

end JsValue

open JsValue

/--
Equality of documents is an equivalence, and documents it holds of serialise to
the same JSON; those that do are equal but where they differ, at some place, in
one zero for the other or in one value written `null` for another.
-/
theorem documentsEqual_serialises (nearest : ℚ → Option Dyadic)
    (scientific : Scientific) :
    (∀ document : Document, documentsEqual document document = true)
      ∧ (∀ left right : Document, documentsEqual left right = true →
        documentsEqual right left = true)
      ∧ (∀ left middle right : Document, documentsEqual left middle = true →
        documentsEqual middle right = true → documentsEqual left right = true)
      ∧ ∀ left right : Document,
        left.val.NumbersReadBack nearest scientific →
          right.val.NumbersReadBack nearest scientific →
            (documentsEqual left right = true →
              SerialiseAlike scientific left.val right.val)
            ∧ ((documentsEqual left right = true
                ↔ SerialiseAlike scientific left.val right.val)
              ↔ ¬(SerialiseAlike scientific left.val right.val
                ∧ Confused false left.val right.val)) := by
  refine ⟨documentsEqual_refl, fun _ _ => documentsEqual_symm,
    fun _ _ _ => documentsEqual_trans, ?_⟩
  intro left right reads right_reads
  have equal := areJsonValuesEqual_iff left.val right.val false left.property
    right.property
  rw [← serialiseAlike_iff reads right_reads] at equal
  unfold documentsEqual
  rw [equal]
  constructor
  · exact And.left
  · constructor
    · rintro matched ⟨alike, confused⟩
      exact (matched.mpr alike).2 confused
    · intro apart
      exact ⟨And.left, fun alike => ⟨alike, fun confused =>
        apart ⟨alike, confused⟩⟩⟩

/-- A document whose count is this number. -/
def countedObject (count : JsNumber) : Document :=
  ⟨.object [("count", .number count)], by simp [OwnMembers, OwnEntries]⟩

theorem numbersReadBack_countedObject (count : JsNumber)
    (zero : count.serialised = .number 0) :
    (countedObject count).val.NumbersReadBack
      (fun number => some (number.toDyadic 1074)) Codegen.oneDigit := by
  intro json written
  have alone : Members.ofMembers [("count", count.serialised)]
      = [("count", count.serialised)] :=
    Members.ofMembers_of_ordered ⟨by simp, by simp⟩
  have held : json = .object [("count", .number 0)] := by
    rw [← zero, ← alone]
    exact (Option.some.inj written).symm
  subst held
  exact ⟨⟨fun nonzero => absurd rfl nonzero, by decide +kernel⟩, trivial⟩

/-- Negative zero for zero is a change that is not written. -/
theorem negative_zero_not_equal :
    documentsEqual (countedObject (.finite 0)) (countedObject .negativeZero)
        = false
      ∧ SerialiseAlike Codegen.oneDigit (countedObject (.finite 0)).val
        (countedObject .negativeZero).val := by
  refine ⟨by decide, ?_⟩
  rw [serialiseAlike_iff (numbersReadBack_countedObject (.finite 0) rfl)
    (numbersReadBack_countedObject .negativeZero rfl)]
  exact .some (Codegen.Reordered.refl _)

theorem zero_serialises :
    (documentsEqual (countedObject (.finite 0)) (countedObject (.finite 0)) = true
        ↔ SerialiseAlike Codegen.oneDigit (countedObject (.finite 0)).val
          (countedObject (.finite 0)).val)
      ↔ ¬(SerialiseAlike Codegen.oneDigit (countedObject (.finite 0)).val
          (countedObject (.finite 0)).val
        ∧ Confused false (countedObject (.finite 0)).val
          (countedObject (.finite 0)).val) :=
  ((documentsEqual_serialises (fun number => some (number.toDyadic 1074))
    Codegen.oneDigit).2.2.2 (countedObject (.finite 0)) (countedObject (.finite 0))
      (numbersReadBack_countedObject (.finite 0) rfl)
      (numbersReadBack_countedObject (.finite 0) rfl)).2

end Clerkenwell.Client
