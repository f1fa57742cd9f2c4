import Clerkenwell.Client.JsonValue
import Clerkenwell.Doc.Json
import Mathlib.Data.List.Nodup
import Mathlib.Data.List.Perm.Subperm
import Mathlib.Data.List.Sort
import Mathlib.Data.String.Basic

/-!
# JSON values on the server and on the client

A JSON value as the server keeps it, the sign of a zero included, and what it
is on each side.  The server compares an integer and a double as different
numbers and the two zeros as one; the client reads every number as a double
and tells the two zeros apart.
-/

namespace Clerkenwell.Client

open Clerkenwell.Doc

/-- A number as a JSON text spells it. -/
inductive SharedNumber where
  | integer (value : Int)
  | double (value : Double)
  | negativeZero
deriving DecidableEq

/-- A JSON value both sides read. -/
inductive SharedValue where
  | null
  | bool (value : Bool)
  | number (value : SharedNumber)
  | string (value : String)
  | array (items : List SharedValue)
  | object (members : List (String × SharedValue))

namespace SharedNumber

def onServer : SharedNumber → JsonNumber
  | .integer value => .integer value
  | .double value => .double value
  | .negativeZero => .double 0

def onClient : SharedNumber → JsNumber
  | .integer value => .finite (doubleOfInt value)
  | .double value => .finite value
  | .negativeZero => .negativeZero

/-- A number spelt as an integer exactly when it is one a double counts to. -/
def Plain : SharedNumber → Prop
  | .integer value => value.natAbs < 2 ^ 53
  | .double value => ∀ integer : Int, value ≠ Dyadic.ofInt integer
  | .negativeZero => False

theorem roundSignificand_of_lt {magnitude : Nat}
    (counted : magnitude < 2 ^ 53) : roundSignificand magnitude = magnitude := by
  have short : magnitude.log2 + 1 - 53 = 0 := by
    rcases Nat.eq_zero_or_pos magnitude with rfl | positive
    · decide
    · have below := (Nat.log2_lt (Nat.pos_iff_ne_zero.mp positive)).mpr counted
      omega
  simp [roundSignificand, short, Nat.mod_one]

theorem ofInt_injective {left right : Int}
    (same : Dyadic.ofInt left = Dyadic.ofInt right) : left = right := by
  have rationals := congrArg Dyadic.toRat same
  have whole : ∀ value : Int, (Dyadic.ofInt value).toRat = value :=
    fun value => Dyadic.toRat_intCast value
  rw [whole, whole] at rationals
  exact_mod_cast rationals

theorem doubleOfInt_of_lt {value : Int} (counted : value.natAbs < 2 ^ 53) :
    doubleOfInt value = Dyadic.ofInt value := by
  rw [doubleOfInt, roundSignificand_of_lt counted, Int.sign_mul_natAbs]

/-- Numbers spelt the one way are one number on both sides, or on neither. -/
theorem same_iff {left right : SharedNumber}
    (plainLeft : left.Plain) (plainRight : right.Plain) :
    left.onServer = right.onServer ↔ left.onClient = right.onClient := by
  cases left with
  | integer left =>
      cases right with
      | integer right =>
          simp only [onServer, onClient, JsonNumber.integer.injEq,
            JsNumber.finite.injEq, doubleOfInt_of_lt plainLeft,
            doubleOfInt_of_lt plainRight]
          exact ⟨congrArg _, ofInt_injective⟩
      | double right =>
          have apart := plainRight left
          simp [onServer, onClient, doubleOfInt_of_lt plainLeft,
            apart.symm]
      | negativeZero => exact plainRight.elim
  | double left =>
      cases right with
      | integer right =>
          have apart := plainLeft right
          simp [onServer, onClient, doubleOfInt_of_lt plainRight, apart]
      | double right => simp [onServer, onClient]
      | negativeZero => exact plainRight.elim
  | negativeZero => exact plainLeft.elim

end SharedNumber

namespace SharedValue

mutual

/-- The value as `serde_json` holds it. -/
def onServer : SharedValue → Json
  | .null => .null
  | .bool value => .bool value
  | .number value => .number value.onServer
  | .string value => .string value
  | .array items => .array (itemsOnServer items)
  | .object members => .object (membersOnServer members)

def itemsOnServer : List SharedValue → List Json
  | [] => []
  | item :: rest => item.onServer :: itemsOnServer rest

def membersOnServer : List (String × SharedValue) → List (String × Json)
  | [] => []
  | (key, value) :: rest => (key, value.onServer) :: membersOnServer rest

end

mutual

/-- The value as `JSON.parse` reads it. -/
def onClient : SharedValue → JsValue
  | .null => .null
  | .bool value => .boolean value
  | .number value => .number value.onClient
  | .string value => .string value
  | .array items => .array (itemsOnClient items)
  | .object members => .object (membersOnClient members)

def itemsOnClient : List SharedValue → List JsValue
  | [] => []
  | item :: rest => item.onClient :: itemsOnClient rest

def membersOnClient : List (String × SharedValue) → List (String × JsValue)
  | [] => []
  | (key, value) :: rest => (key, value.onClient) :: membersOnClient rest

end

theorem itemsOnServer_eq (items : List SharedValue) :
    itemsOnServer items = items.map onServer := by
  induction items with
  | nil => rfl
  | cons item rest inductionHypothesis =>
      rw [itemsOnServer, inductionHypothesis, List.map_cons]

theorem membersOnServer_eq (members : List (String × SharedValue)) :
    membersOnServer members
      = members.map fun member => (member.1, member.2.onServer) := by
  induction members with
  | nil => rfl
  | cons member rest inductionHypothesis =>
      rw [membersOnServer, inductionHypothesis, List.map_cons]

theorem itemsOnClient_eq (items : List SharedValue) :
    itemsOnClient items = items.map onClient := by
  induction items with
  | nil => rfl
  | cons item rest inductionHypothesis =>
      rw [itemsOnClient, inductionHypothesis, List.map_cons]

theorem membersOnClient_eq (members : List (String × SharedValue)) :
    membersOnClient members
      = members.map fun member => (member.1, member.2.onClient) := by
  induction members with
  | nil => rfl
  | cons member rest inductionHypothesis =>
      rw [membersOnClient, inductionHypothesis, List.map_cons]

theorem lookup_map_value {α β : Type} (read : α → β)
    (members : List (String × α)) (key : String) :
    (members.map fun member => (member.1, read member.2)).lookup key
      = (members.lookup key).map read := by
  induction members with
  | nil => rfl
  | cons member rest inductionHypothesis =>
      rw [List.map_cons, List.lookup_cons, List.lookup_cons]
      cases key == member.1 with
      | true => rfl
      | false => exact inductionHypothesis

/-- The member `key` of an object. -/
def get? : SharedValue → String → Option SharedValue
  | .object members, key => members.lookup key
  | _, _ => none

def asArray : SharedValue → Option (List SharedValue)
  | .array items => some items
  | _ => none

def asStr : SharedValue → Option String
  | .string value => some value
  | _ => none

@[simp]
theorem get?_onServer (value : SharedValue) (key : String) :
    value.onServer.get? key = (value.get? key).map onServer := by
  cases value with
  | object members =>
      rw [onServer, membersOnServer_eq]
      exact lookup_map_value onServer members key
  | _ => rfl

@[simp]
theorem asArray_onServer (value : SharedValue) :
    value.onServer.asArray = value.asArray.map (List.map onServer) := by
  cases value with
  | array items =>
      rw [onServer, itemsOnServer_eq]
      rfl
  | _ => rfl

@[simp]
theorem asStr_onServer (value : SharedValue) :
    value.onServer.asStr = value.asStr := by
  cases value <;> rfl

/-- No value reads as `undefined`. -/
@[simp]
theorem isUndefined_onClient (value : SharedValue) :
    value.onClient.isUndefined = false := by
  cases value <;> rfl

/-! ## Spelt the one way -/

mutual

/-- Every number of a value is spelt the one way. -/
def Plain : SharedValue → Prop
  | .number value => value.Plain
  | .array items => PlainItems items
  | .object members => PlainMembers members
  | _ => True

def PlainItems : List SharedValue → Prop
  | [] => True
  | item :: rest => item.Plain ∧ PlainItems rest

def PlainMembers : List (String × SharedValue) → Prop
  | [] => True
  | (_, value) :: rest => value.Plain ∧ PlainMembers rest

end

mutual

/-- Every object lists its members in the order of their names, each once. -/
def Ordered : SharedValue → Prop
  | .array items => OrderedItems items
  | .object members =>
      (members.map Prod.fst).Pairwise (· < ·) ∧ OrderedMembers members
  | _ => True

def OrderedItems : List SharedValue → Prop
  | [] => True
  | item :: rest => item.Ordered ∧ OrderedItems rest

def OrderedMembers : List (String × SharedValue) → Prop
  | [] => True
  | (_, value) :: rest => value.Ordered ∧ OrderedMembers rest

end

theorem plainItems_iff (items : List SharedValue) :
    PlainItems items ↔ ∀ item ∈ items, item.Plain := by
  induction items with
  | nil => simp [PlainItems]
  | cons item rest inductionHypothesis =>
      simp [PlainItems, inductionHypothesis]

theorem plainMembers_iff (members : List (String × SharedValue)) :
    PlainMembers members ↔ ∀ member ∈ members, member.2.Plain := by
  induction members with
  | nil => simp [PlainMembers]
  | cons member rest inductionHypothesis =>
      simp [PlainMembers, inductionHypothesis]

theorem orderedItems_iff (items : List SharedValue) :
    OrderedItems items ↔ ∀ item ∈ items, item.Ordered := by
  induction items with
  | nil => simp [OrderedItems]
  | cons item rest inductionHypothesis =>
      simp [OrderedItems, inductionHypothesis]

theorem orderedMembers_iff (members : List (String × SharedValue)) :
    OrderedMembers members ↔ ∀ member ∈ members, member.2.Ordered := by
  induction members with
  | nil => simp [OrderedMembers]
  | cons member rest inductionHypothesis =>
      simp [OrderedMembers, inductionHypothesis]

/-! ### Equality on the client -/

theorem areItemsEqual_onClient (left right : List SharedValue) :
    areItemsEqual (itemsOnClient left) (itemsOnClient right) = true
      ↔ List.Forall₂
          (fun left right =>
            areJsonValuesEqual left.onClient right.onClient = true)
          left right := by
  induction left generalizing right with
  | nil =>
      cases right with
      | nil => simp [itemsOnClient, areItemsEqual]
      | cons other others =>
          refine iff_of_false (by simp [itemsOnClient, areItemsEqual]) ?_
          rintro ⟨⟩
  | cons item rest inductionHypothesis =>
      cases right with
      | nil =>
          refine iff_of_false (by simp [itemsOnClient, areItemsEqual]) ?_
          rintro ⟨⟩
      | cons other others =>
          simp [itemsOnClient, areItemsEqual, inductionHypothesis]

theorem member_onClient (members : List (String × SharedValue))
    (key : String) :
    JsValue.member (membersOnClient members) key
      = ((members.lookup key).map onClient).getD .undefined := by
  rw [JsValue.member, membersOnClient_eq, lookup_map_value]

theorem isSome_lookup_of_mem {members : List (String × SharedValue)}
    {key : String} (held : key ∈ members.map Prod.fst) :
    (members.lookup key).isSome = true := by
  rw [Option.isSome_iff_ne_none, ne_eq, List.lookup_eq_none_iff]
  intro absent
  obtain ⟨member, there, rfl⟩ := List.mem_map.mp held
  simpa using absent member there

theorem definedKeys_onClient (members : List (String × SharedValue)) :
    JsValue.definedKeys (membersOnClient members)
      = members.map Prod.fst := by
  have keys : (membersOnClient members).map Prod.fst
      = members.map Prod.fst := by
    rw [membersOnClient_eq, List.map_map]
    rfl
  rw [JsValue.definedKeys, keys, List.filter_eq_self]
  intro key held
  obtain ⟨value, there⟩ :=
    Option.isSome_iff_exists.mp (isSome_lookup_of_mem held)
  simp [member_onClient, there]

theorem areMembersEqual_onClient (left right : List (String × SharedValue)) :
    areMembersEqual (membersOnClient left) (membersOnClient right) = true
      ↔ ∀ member ∈ left, ∃ value, right.lookup member.1 = some value
          ∧ areJsonValuesEqual member.2.onClient value.onClient = true := by
  induction left with
  | nil => simp [membersOnClient, areMembersEqual]
  | cons member rest inductionHypothesis =>
      obtain ⟨key, value⟩ := member
      rw [membersOnClient, areMembersEqual, Bool.and_eq_true,
        inductionHypothesis, List.forall_mem_cons]
      refine and_congr_left fun _ => ?_
      rw [member_onClient]
      rw [isUndefined_onClient, Bool.false_or]
      cases right.lookup key with
      | none => simp [JsValue.isUndefined]
      | some held => simp

/-! ### One equality on both sides -/

/-- Lists of unique names that hold each other's are the same when ordered. -/
theorem keys_eq_of_subset {left right : List String}
    (orderedLeft : left.Pairwise (· < ·))
    (orderedRight : right.Pairwise (· < ·))
    (lengths : left.length = right.length) (within : left ⊆ right) :
    left = right := by
  have unique : ∀ {names : List String}, names.Pairwise (· < ·) →
      names.Nodup := fun ordered => ordered.imp fun less => ne_of_lt less
  have perm : left.Perm right :=
    ((unique orderedLeft).subperm within).perm_of_length_le
      (le_of_eq lengths.symm)
  exact perm.eq_of_pairwise
    (fun first second _ _ less more => absurd less (lt_asymm more))
    orderedLeft orderedRight

theorem mem_of_lookup {members : List (String × SharedValue)}
    {key : String} {value : SharedValue}
    (found : members.lookup key = some value) : (key, value) ∈ members := by
  obtain ⟨before, after, rfl, -⟩ := List.lookup_eq_some_iff.mp found
  exact List.mem_append_right _ List.mem_cons_self

/-- Relations that agree on the items of two lists agree on the lists. -/
theorem forall₂_congr_of_mem {α β : Type} {first second : α → β → Prop}
    {left : List α} {right : List β}
    (agree : ∀ item ∈ left, ∀ other ∈ right,
      (first item other ↔ second item other)) :
    List.Forall₂ first left right ↔ List.Forall₂ second left right := by
  induction left generalizing right with
  | nil => cases right <;> simp
  | cons item rest inductionHypothesis =>
      cases right with
      | nil => simp
      | cons other others =>
          rw [List.forall₂_cons, List.forall₂_cons,
            agree item List.mem_cons_self other List.mem_cons_self,
            inductionHypothesis fun later held another there =>
              agree later (List.mem_cons_of_mem _ held) another
                (List.mem_cons_of_mem _ there)]

theorem lookup_of_ordered {members : List (String × SharedValue)}
    (ordered : (members.map Prod.fst).Pairwise (· < ·))
    {member : String × SharedValue} (held : member ∈ members) :
    members.lookup member.1 = some member.2 := by
  induction members with
  | nil => cases held
  | cons first rest inductionHypothesis =>
      rw [List.map_cons, List.pairwise_cons] at ordered
      rcases List.mem_cons.mp held with rfl | later
      · rw [List.lookup_cons, beq_self_eq_true]
      · have different : (member.1 == first.1) = false := by
          rw [beq_eq_false_iff_ne]
          exact (ne_of_lt (ordered.1 _ (List.mem_map_of_mem later))).symm
        rw [List.lookup_cons, different]
        exact inductionHypothesis ordered.2 later

/-- Members of one list's names and of values that read the same. -/
theorem membersOnServer_congr
    {left right : List (String × SharedValue)}
    (keys : left.map Prod.fst = right.map Prod.fst)
    (ordered : (right.map Prod.fst).Pairwise (· < ·))
    (same : ∀ member ∈ left, ∃ value, right.lookup member.1 = some value
      ∧ member.2.onServer = value.onServer) :
    membersOnServer left = membersOnServer right := by
  induction left generalizing right with
  | nil =>
      rw [List.map_nil, eq_comm, List.map_eq_nil_iff] at keys
      rw [keys]
  | cons first rest inductionHypothesis =>
      cases right with
      | nil => cases keys
      | cons other others =>
          obtain ⟨firstKey, firstValue⟩ := first
          obtain ⟨otherKey, otherValue⟩ := other
          rw [List.map_cons, List.map_cons, List.cons.injEq] at keys
          obtain ⟨rfl, keys⟩ := keys
          rw [List.map_cons, List.pairwise_cons] at ordered
          obtain ⟨value, found, equal⟩ :=
            same (firstKey, firstValue) List.mem_cons_self
          rw [List.lookup_cons, beq_self_eq_true] at found
          cases found
          rw [membersOnServer, membersOnServer, equal,
            inductionHypothesis keys ordered.2]
          intro member held
          obtain ⟨value, found, equal⟩ :=
            same member (List.mem_cons_of_mem _ held)
          have different : (member.1 == firstKey) = false := by
            rw [beq_eq_false_iff_ne]
            refine (ne_of_lt (ordered.1 _ ?_)).symm
            rw [← keys]
            exact List.mem_map_of_mem held
          rw [List.lookup_cons, different] at found
          exact ⟨value, found, equal⟩

/--
Values spelt the one way are equal on the server exactly when they are on the
client.
-/
theorem same_iff : ∀ left right : SharedValue,
    left.Plain → right.Plain → left.Ordered → right.Ordered →
      (left.onServer = right.onServer
        ↔ areJsonValuesEqual left.onClient right.onClient = true)
  | .null, right, _, _, _, _ => by
      cases right <;> simp [onServer, onClient, areJsonValuesEqual]
  | .bool value, right, _, _, _, _ => by
      cases right <;> simp [onServer, onClient, areJsonValuesEqual]
  | .string value, right, _, _, _, _ => by
      cases right <;> simp [onServer, onClient, areJsonValuesEqual]
  | .number value, right, plainLeft, plainRight, _, _ => by
      cases right with
      | number other =>
          simp [onServer, onClient, areJsonValuesEqual,
            SharedNumber.same_iff plainLeft plainRight]
      | _ => simp [onServer, onClient, areJsonValuesEqual]
  | .array items, right, plainLeft, plainRight, orderedLeft, orderedRight => by
      cases right with
      | array others =>
          rw [onServer, onServer, Json.array.injEq, itemsOnServer_eq,
            itemsOnServer_eq, onClient, onClient, areJsonValuesEqual,
            areItemsEqual_onClient, ← List.forall₂_eq_eq_eq,
            List.forall₂_map_left_iff, List.forall₂_map_right_iff]
          refine forall₂_congr_of_mem fun item held other there => ?_
          exact same_iff item other
            ((plainItems_iff items).mp plainLeft item held)
            ((plainItems_iff others).mp plainRight other there)
            ((orderedItems_iff items).mp orderedLeft item held)
            ((orderedItems_iff others).mp orderedRight other there)
      | _ => simp [onServer, onClient, areJsonValuesEqual]
  | .object members, right, plainLeft, plainRight, orderedLeft,
      orderedRight => by
      cases right with
      | object others =>
          have agree : ∀ member ∈ members, ∀ value,
              others.lookup member.1 = some value →
                (member.2.onServer = value.onServer
                  ↔ areJsonValuesEqual member.2.onClient value.onClient
                    = true) := by
            intro member held value found
            have there : (member.1, value) ∈ others :=
              mem_of_lookup found
            exact same_iff member.2 value
              ((plainMembers_iff members).mp plainLeft member held)
              ((plainMembers_iff others).mp plainRight _ there)
              ((orderedMembers_iff members).mp orderedLeft.2 member held)
              ((orderedMembers_iff others).mp orderedRight.2 _ there)
          rw [onServer, onServer, Json.object.injEq, onClient, onClient,
            areJsonValuesEqual, Bool.and_eq_true, beq_iff_eq,
            definedKeys_onClient, definedKeys_onClient,
            areMembersEqual_onClient]
          constructor
          · intro same
            have keys : members.map Prod.fst = others.map Prod.fst := by
              have read := congrArg (List.map Prod.fst) same
              simpa [membersOnServer_eq, List.map_map, Function.comp_def]
                using read
            refine ⟨congrArg List.length keys, fun member held => ?_⟩
            obtain ⟨value, found⟩ := Option.isSome_iff_exists.mp
              (isSome_lookup_of_mem (keys ▸ List.mem_map_of_mem held))
            refine ⟨value, found, (agree member held value found).mp ?_⟩
            have read := congrArg (List.lookup member.1) same
            rw [membersOnServer_eq, membersOnServer_eq, lookup_map_value,
              lookup_map_value, lookup_of_ordered orderedLeft.1 held,
              found] at read
            exact Option.some.inj read
          · rintro ⟨lengths, equal⟩
            have keys : members.map Prod.fst = others.map Prod.fst := by
              refine keys_eq_of_subset orderedLeft.1 orderedRight.1 lengths ?_
              intro key held
              obtain ⟨member, there, rfl⟩ := List.mem_map.mp held
              obtain ⟨value, found, -⟩ := equal member there
              exact List.mem_map.mpr ⟨_, mem_of_lookup found, rfl⟩
            refine membersOnServer_congr keys orderedRight.1 ?_
            intro member held
            obtain ⟨value, found, same⟩ := equal member held
            exact ⟨value, found, (agree member held value found).mpr same⟩
      | _ => simp [onServer, onClient, areJsonValuesEqual]
termination_by left => sizeOf left
decreasing_by
  · have smaller := List.sizeOf_lt_of_mem held
    simp only [SharedValue.array.sizeOf_spec]
    omega
  · have smaller := List.sizeOf_lt_of_mem held
    obtain ⟨key, value⟩ := member
    simp only [Prod.mk.sizeOf_spec, SharedValue.object.sizeOf_spec]
      at smaller ⊢
    omega

end SharedValue

end Clerkenwell.Client
