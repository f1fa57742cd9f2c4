import Mathlib.Data.List.Basic

/-!
# JSON-shaped values of the TypeScript client

Authoring documents are JSON-shaped JavaScript values.  An object is the list
of its own enumerable members, in the order a program inserted them; a member
may hold `undefined`.  `areJsonValuesEqual` is the structural equality the
authoring session compares its baseline and its draft by.

Numbers are kept up to `Object.is`, which separates the two zeros and
identifies every NaN with itself.
-/

namespace Clerkenwell.Client

/-- A JavaScript number, up to `Object.is`. -/
inductive JsNumber where
  | nan
  | infinity (negative : Bool)
  | negativeZero
  | finite (value : Dyadic)
deriving DecidableEq

/-- A JSON-shaped JavaScript value. -/
inductive JsValue where
  | undefined
  | null
  | boolean (value : Bool)
  | number (value : JsNumber)
  | string (value : String)
  | array (items : List JsValue)
  | object (members : List (String × JsValue))

namespace JsValue

/-- The value of the own member `key`, `undefined` when there is none. -/
def member (members : List (String × JsValue)) (key : String) : JsValue :=
  (members.lookup key).getD .undefined

/-- Whether a value is `undefined`. -/
def isUndefined : JsValue → Bool
  | .undefined => true
  | _ => false

/-- Whether a value is `null` or `undefined`, as the operator `??` reads it. -/
def isNullish : JsValue → Bool
  | .undefined => true
  | .null => true
  | _ => false

/-- `value ?? fallback`. -/
def orElse (value fallback : JsValue) : JsValue :=
  if value.isNullish then fallback else value

/-- The own members that hold a value other than `undefined`. -/
def definedKeys (members : List (String × JsValue)) : List String :=
  (members.map Prod.fst).filter fun key => !(member members key).isUndefined

/--
A deep copy.  A JSON-shaped value and its copy are the same value; only the
identity of the objects it is made of differs, which no transition reads.
-/
def structuredClone (value : JsValue) : JsValue :=
  value

end JsValue

mutual

/--
Compares arrays in order and objects by property name, independent of the
order of their properties.  An undefined property is an absent one.
-/
def areJsonValuesEqual : JsValue → JsValue → Bool
  | .undefined, .undefined => true
  | .null, .null => true
  | .boolean left, .boolean right => left == right
  | .number left, .number right => left == right
  | .string left, .string right => left == right
  | .array left, .array right => areItemsEqual left right
  | .object left, .object right =>
      (JsValue.definedKeys left).length == (JsValue.definedKeys right).length
        && areMembersEqual left right
  | _, _ => false

/-- Items of equal position are equal, and neither list is longer. -/
def areItemsEqual : List JsValue → List JsValue → Bool
  | [], [] => true
  | left :: lefts, right :: rights =>
      areJsonValuesEqual left right && areItemsEqual lefts rights
  | _, _ => false

/-- Every defined member on the left equals the right's member of its name. -/
def areMembersEqual :
    List (String × JsValue) → List (String × JsValue) → Bool
  | [], _ => true
  | (key, value) :: rest, right =>
      (value.isUndefined
          || (!(JsValue.member right key).isUndefined
            && areJsonValuesEqual value (JsValue.member right key)))
        && areMembersEqual rest right

end

/-! ## Well-formed values -/

mutual

/-- A value each of whose objects names every member once. -/
def JsValue.OwnMembers : JsValue → Prop
  | .array items => JsValue.OwnItems items
  | .object members =>
      (members.map Prod.fst).Nodup ∧ JsValue.OwnEntries members
  | _ => True

/-- Every item names each of its members once. -/
def JsValue.OwnItems : List JsValue → Prop
  | [] => True
  | item :: rest => item.OwnMembers ∧ JsValue.OwnItems rest

/-- Every member's value names each of its members once. -/
def JsValue.OwnEntries : List (String × JsValue) → Prop
  | [] => True
  | (_, value) :: rest => value.OwnMembers ∧ JsValue.OwnEntries rest

end

/-- A document: a JSON-shaped value that names each of its members once. -/
abbrev Document := { value : JsValue // value.OwnMembers }

theorem JsValue.member_of_mem
    {members : List (String × JsValue)}
    (nodup : (members.map Prod.fst).Nodup)
    {entry : String × JsValue}
    (held : entry ∈ members) :
    JsValue.member members entry.1 = entry.2 := by
  induction members with
  | nil => cases held
  | cons first rest inductionHypothesis =>
      simp only [List.map_cons, List.nodup_cons] at nodup
      rcases List.mem_cons.mp held with rfl | later
      · rw [JsValue.member, List.lookup_cons, beq_self_eq_true]
        rfl
      · have different : entry.1 ≠ first.1 := by
          intro same
          exact nodup.1 (same ▸ List.mem_map_of_mem later)
        have unequal : (entry.1 == first.1) = false := by
          simpa using different
        rw [JsValue.member, List.lookup_cons, unequal]
        exact inductionHypothesis nodup.2 later

mutual

/-- Equality is reflexive on values that name each member once. -/
theorem areJsonValuesEqual_refl :
    ∀ value : JsValue, value.OwnMembers →
      areJsonValuesEqual value value = true
  | .undefined, _ => rfl
  | .null, _ => rfl
  | .boolean _, _ => by simp [areJsonValuesEqual]
  | .number _, _ => by simp [areJsonValuesEqual]
  | .string _, _ => by simp [areJsonValuesEqual]
  | .array items, own => by
      rw [areJsonValuesEqual]
      exact areItemsEqual_refl items own
  | .object members, own => by
      have selfEqual : areMembersEqual members members = true :=
        areMembersEqual_of_members members members own.2
          (fun _ held => JsValue.member_of_mem own.1 held)
      simp [areJsonValuesEqual, selfEqual]

theorem areItemsEqual_refl :
    ∀ items : List JsValue, JsValue.OwnItems items →
      areItemsEqual items items = true
  | [], _ => rfl
  | item :: rest, own => by
      rw [areItemsEqual, areJsonValuesEqual_refl item own.1,
        areItemsEqual_refl rest own.2]
      rfl

/-- Entries equal an object that holds every one of them. -/
theorem areMembersEqual_of_members :
    ∀ entries right : List (String × JsValue),
      JsValue.OwnEntries entries →
      (∀ entry ∈ entries, JsValue.member right entry.1 = entry.2) →
      areMembersEqual entries right = true
  | [], _, _, _ => rfl
  | (key, value) :: rest, right, own, held => by
      have here : JsValue.member right key = value :=
        held (key, value) List.mem_cons_self
      have later : areMembersEqual rest right = true :=
        areMembersEqual_of_members rest right own.2
          (fun entry mem => held entry (List.mem_cons_of_mem _ mem))
      have same : areJsonValuesEqual value value = true :=
        areJsonValuesEqual_refl value own.1
      cases defined : value.isUndefined <;>
        simp [areMembersEqual, here, later, same, defined]

end

end Clerkenwell.Client
