import Mathlib.Algebra.Ring.Int.Defs
import Mathlib.Algebra.Ring.Nat
import Mathlib.Data.List.Basic

/-!
# JSON values

The values `serde_json` holds.  An object is the list of its members in the
order of their names, as the ordered map it is kept in lists them; `insert`
keeps that order.

A number is an integer or a double, and the two are never equal.  A double is
finite and is kept as the dyadic rational it denotes, which identifies the two
zeros as comparison does.
-/

namespace Clerkenwell.Doc

/-- A finite double-precision number. -/
abbrev Double := Dyadic

/-- A number of a JSON value. -/
inductive JsonNumber where
  | integer (value : Int)
  | double (value : Double)
deriving DecidableEq

/-- A JSON value. -/
inductive Json where
  | null
  | bool (value : Bool)
  | number (value : JsonNumber)
  | string (value : String)
  | array (items : List Json)
  | object (members : List (String × Json))

mutual

/-- `left == right`. -/
def Json.equal : Json → Json → Bool
  | .null, .null => true
  | .bool left, .bool right => left == right
  | .number left, .number right => left == right
  | .string left, .string right => left == right
  | .array left, .array right => equalItems left right
  | .object left, .object right => equalMembers left right
  | _, _ => false

/-- Whether two arrays hold equal items in order. -/
def equalItems : List Json → List Json → Bool
  | [], [] => true
  | left :: lefts, right :: rights =>
      left.equal right && equalItems lefts rights
  | _, _ => false

/-- Whether two objects hold equal members in the order of their names. -/
def equalMembers : List (String × Json) → List (String × Json) → Bool
  | [], [] => true
  | (leftKey, left) :: lefts, (rightKey, right) :: rights =>
      leftKey == rightKey && left.equal right && equalMembers lefts rights
  | _, _ => false

end

mutual

theorem Json.equal_iff : ∀ left right : Json,
    left.equal right = true ↔ left = right
  | .null, right => by cases right <;> simp [Json.equal]
  | .bool value, right => by cases right <;> simp [Json.equal]
  | .number value, right => by cases right <;> simp [Json.equal]
  | .string value, right => by cases right <;> simp [Json.equal]
  | .array items, right => by
      cases right <;> simp [Json.equal, equalItems_iff items]
  | .object members, right => by
      cases right <;> simp [Json.equal, equalMembers_iff members]

theorem equalItems_iff : ∀ left right : List Json,
    equalItems left right = true ↔ left = right
  | [], right => by cases right <;> simp [equalItems]
  | item :: rest, right => by
      cases right <;>
        simp [equalItems, Json.equal_iff item, equalItems_iff rest]

theorem equalMembers_iff : ∀ left right : List (String × Json),
    equalMembers left right = true ↔ left = right
  | [], right => by cases right <;> simp [equalMembers]
  | (key, value) :: rest, right => by
      cases right <;>
        simp [equalMembers, Json.equal_iff value, equalMembers_iff rest,
          Prod.ext_iff, and_assoc]

end

instance : DecidableEq Json := fun left right =>
  decidable_of_iff (left.equal right = true) (Json.equal_iff left right)

/-- The members of an object. -/
abbrev Members := List (String × Json)

namespace Members

/-- The value of the member `key`. -/
def get? (members : Members) (key : String) : Option Json :=
  members.lookup key

/-- Whether there is a member `key`. -/
def containsKey (members : Members) (key : String) : Bool :=
  (members.get? key).isSome

/-- The members with `key` given `value`, in the order of their names. -/
def insert : Members → String → Json → Members
  | [], key, value => [(key, value)]
  | (name, held) :: rest, key, value =>
      if key = name then
        (key, value) :: rest
      else if key < name then
        (key, value) :: (name, held) :: rest
      else
        (name, held) :: insert rest key value

/-- The members without `key`. -/
def remove (members : Members) (key : String) : Members :=
  members.filter fun member => member.1 != key

/-- The members' names, in order. -/
def keys (members : Members) : List String :=
  members.map Prod.fst

end Members

namespace Json

/-- `value.get(key)`: the member `key` of an object. -/
def get? : Json → String → Option Json
  | .object members, key => Members.get? members key
  | _, _ => none

/-- `value[key]`: the member `key` of an object, or null. -/
def index (value : Json) (key : String) : Json :=
  (value.get? key).getD .null

def asBool : Json → Option Bool
  | .bool value => some value
  | _ => none

/-- The value as a signed 64-bit integer. -/
def asI64 : Json → Option Int
  | .number (.integer value) =>
      if -2 ^ 63 ≤ value ∧ value < 2 ^ 63 then some value else none
  | _ => none

def asStr : Json → Option String
  | .string value => some value
  | _ => none

def asArray : Json → Option (List Json)
  | .array items => some items
  | _ => none

def asObject : Json → Option Members
  | .object members => some members
  | _ => none

def isNull : Json → Bool
  | .null => true
  | _ => false

end Json

/-! ## Integers as doubles -/

/-- An integer rounded to 53 significant bits, ties to the even neighbour. -/
def roundSignificand (magnitude : Nat) : Nat :=
  let excess := magnitude.log2 + 1 - 53
  let unit := 2 ^ excess
  let quotient := magnitude / unit
  let remainder := magnitude % unit
  let rounded :=
    if 2 * remainder < unit then quotient
    else if unit < 2 * remainder then quotient + 1
    else quotient + quotient % 2
  rounded * unit

/-- `value as f64`. -/
def doubleOfInt (value : Int) : Double :=
  Dyadic.ofInt (value.sign * roundSignificand value.natAbs)

/-- The value as a double. -/
def JsonNumber.asF64 : JsonNumber → Double
  | .integer value => doubleOfInt value
  | .double value => value

/-- The value as a double. -/
def Json.asF64 : Json → Option Double
  | .number value => some value.asF64
  | _ => none

end Clerkenwell.Doc
