import Clerkenwell.Codegen.JsonReading

/-!
# The order of an object's members, and that it survives printing

However an object is built, its array indices come first and in order, and its
other keys come in the order each was first assigned in.  A value printed and
parsed is that value, its objects in their order, as long as it is not nested
too deep to be parsed.
-/

namespace Clerkenwell.Codegen

open Clerkenwell.Foundation

/-! ## Building an object -/

/-- What a program does to an object. -/
inductive Assignment where
  | insert (key : String) (value : Json)
  | insertSome (key : String) (value : Option Json)
  | spread (other : Members)

namespace Assignment

/-- The members an assignment assigns, in order. -/
def members : Assignment → Members
  | .insert key value => [(key, value)]
  | .insertSome key value => value.toList.map fun value => (key, value)
  | .spread other => other

def apply (object : Members) : Assignment → Members
  | .insert key value => object.insert key value
  | .insertSome _ none => object
  | .insertSome key (some value) => object.insert key value
  | .spread other => object.spread other

/-- Every assignment assigns its members one after another. -/
theorem apply_eq (object : Members) (assignment : Assignment) :
    assignment.apply object = object.spread assignment.members := by
  match assignment with
  | .insert _ _ | .insertSome _ none | .insertSome _ (some _) | .spread _ => rfl

end Assignment

/-- The object that a program builds, beginning with none. -/
def built (program : List Assignment) : Members :=
  program.foldl Assignment.apply []

/-- The members a program assigns, in order, repetitions included. -/
def assigned (program : List Assignment) : Members :=
  program.flatMap Assignment.members

/-- Whether a key is an array index. -/
def isIndex (key : String) : Bool :=
  (arrayIndex key).isSome

/-- The value last assigned to a key. -/
def lastAssigned (members : Members) (key : String) : Option Json :=
  Members.get? members.reverse key

theorem built_eq (program : List Assignment) :
    built program = Members.ofMembers (assigned program) := by
  have general : ∀ object : Members,
      program.foldl Assignment.apply object
        = object.spread (assigned program) := by
    induction program with
    | nil => exact fun _ => rfl
    | cons assignment program inductionHypothesis =>
        intro object
        rw [List.foldl_cons, inductionHypothesis, Assignment.apply_eq]
        simp [assigned, Members.spread]
  exact general []

namespace Members

theorem names_eq (members : Members) :
    members.names = members.keys.filter fun key => !isIndex key := by
  apply List.filter_congr
  intro key _
  cases found : arrayIndex key <;> simp [isIndex, found]

theorem ofMembers_append (members : Members) (key : String) (value : Json) :
    ofMembers (members ++ [(key, value)]) = (ofMembers members).insert key value := by
  simp [ofMembers, spread]

theorem mem_keys_ofMembers_iff (members : Members) (key : String) :
    key ∈ (ofMembers members).keys ↔ key ∈ members.keys := by
  induction members using List.reverseRecOn with
  | nil => rfl
  | append_singleton members member inductionHypothesis =>
      rw [ofMembers_append, mem_keys_insert, inductionHypothesis, keys, keys,
        List.map_append, List.mem_append]
      simp [or_comm]

/-- Each key that is no array index stands where it was first assigned. -/
theorem names_ofMembers_eq (members : Members) :
    (ofMembers members).names
      = (members.keys.filter fun key => !isIndex key).eraseDups := by
  induction members using List.reverseRecOn with
  | nil => rfl
  | append_singleton members member inductionHypothesis =>
      obtain ⟨key, value⟩ := member
      have split : keys (members ++ [(key, value)]) = keys members ++ [key] := by
        rw [keys, List.map_append]
        rfl
      rw [ofMembers_append, split, List.filter_append, List.eraseDups_append,
        ← inductionHypothesis]
      by_cases held : key ∈ keys members
      · have assigned : key ∈ (ofMembers members).keys :=
          (mem_keys_ofMembers_iff members key).mpr held
        have nothing : ([key].filter fun key => !isIndex key).removeAll
            ((keys members).filter fun key => !isIndex key) = [] := by
          cases indexed : isIndex key <;>
            simp [List.removeAll, indexed, held]
        rw [names, keys_insert_of_mem assigned, nothing, List.eraseDups_nil,
          List.append_nil]
        rfl
      · have absent : key ∉ (ofMembers members).keys := fun within =>
          held ((mem_keys_ofMembers_iff members key).mp within)
        have alone : (([key].filter fun key => !isIndex key).removeAll
            ((keys members).filter fun key => !isIndex key)).eraseDups
              = [key].filter fun key => arrayIndex key = none := by
          cases found : arrayIndex key <;>
            simp [List.removeAll, isIndex, found, held, List.eraseDups_cons]
        rw [names_insert absent, alone]

/-- The value of a key is the last one assigned to it. -/
theorem get?_ofMembers_eq (members : Members) (key : String) :
    (ofMembers members).get? key = lastAssigned members key := by
  induction members using List.reverseRecOn with
  | nil => rfl
  | append_singleton members member inductionHypothesis =>
      rw [ofMembers_append, get?_insert (ordered_ofMembers members).nodup,
        inductionHypothesis, lastAssigned, lastAssigned, List.reverse_append]
      exact (get?_cons _ _ _).symm

/-- In order, the array indices come before every other key. -/
theorem Ordered.keys_eq {members : Members} (ordered : members.Ordered) :
    members.keys = members.keys.filter isIndex ++ members.names := by
  have first : members.keys.Pairwise fun earlier later =>
      isIndex later = true → isIndex earlier = true := by
    refine ordered.indexed.imp ?_
    intro earlier later before index
    unfold indexedBefore at before
    unfold isIndex at index ⊢
    cases one : arrayIndex earlier with
    | some _ => rfl
    | none =>
        obtain ⟨other, two⟩ := Option.isSome_iff_exists.mp index
        rw [one, two] at before
        cases before
  have parts := takeWhile_eq_filter first
  rw [names_eq, ← parts.1, ← parts.2, List.takeWhile_append_dropWhile]

/-- In order, the array indices ascend. -/
theorem Ordered.indices_lt {members : Members} (ordered : members.Ordered) :
    ((members.keys.filter isIndex).filterMap arrayIndex).Pairwise (· < ·) := by
  refine List.pairwise_filterMap.mpr (ordered.indexed.filter _ |>.imp ?_)
  intro earlier later before index one other two
  unfold indexedBefore at before
  rw [one, two] at before
  exact before

end Members

/--
Whatever a program does to an object, its array indices come first and ascend,
every other key stands where it was first assigned, and each has the value last
assigned to it; and a value printed in either form is parsed as that value, in
its order at every depth, where it is nested less deep than the parser gives up
at, and refused where it is not.
-/
theorem order_survives_printing :
    (∀ program : List Assignment,
      (built program).keys
          = (built program).keys.filter isIndex
            ++ ((assigned program).keys.filter fun key =>
              !isIndex key).eraseDups
        ∧ (((built program).keys.filter isIndex).filterMap arrayIndex).Pairwise
          (· < ·)
        ∧ (∀ key, key ∈ (built program).keys ↔ key ∈ (assigned program).keys)
        ∧ ∀ key, (built program).get? key = lastAssigned (assigned program) key)
      ∧ ∀ (nearest : ℚ → Option Dyadic) (scientific : Scientific)
          (serde : SerdeJson nearest) (value : Json),
        value.WellFormed → value.EachNumber (ReadsBack nearest scientific) →
          (value.depth < recursionLimit →
            parse nearest serde (Json.stringify scientific value) = some value
              ∧ parse nearest serde (stringifyPretty scientific value)
                = some value)
          ∧ (recursionLimit ≤ value.depth →
            parse nearest serde (Json.stringify scientific value) = none
              ∧ parse nearest serde (stringifyPretty scientific value)
                = none) := by
  constructor
  · intro program
    have ordered := Members.ordered_ofMembers (assigned program)
    rw [built_eq]
    refine ⟨?_, ordered.indices_lt, Members.mem_keys_ofMembers_iff _,
      Members.get?_ofMembers_eq _⟩
    rw [← Members.names_ofMembers_eq]
    exact ordered.keys_eq
  · intro nearest scientific serde value wellFormed each
    have compact := parse_writeValue serde
      (by simp [Spaces] : Spaces ((none : Option (List Char)).getD []))
      wellFormed each
    have pretty := parse_writeValue serde
      (by simp [Spaces, JsonText.isSpace] :
        Spaces ((some [' ', ' '] : Option (List Char)).getD []))
      wellFormed each
    constructor
    · intro shallow
      rw [if_pos shallow] at compact pretty
      exact ⟨compact, pretty⟩
    · intro deep
      rw [if_neg (Nat.not_lt_of_le deep)] at compact pretty
      exact ⟨compact, pretty⟩

/-! ## A deserializer -/

section Deserializer

variable (nearest : ℚ → Option Dyadic)

/-- A number as an integer where it fits one, as the nearest double elsewhere. -/
def deliverNumber (number : ℚ) : Option Visit :=
  if number = number.num.toNat ∧ number.num.toNat < 2 ^ 64 then
    some (.u64 number.num.toNat)
  else (nearest number).map .f64

mutual

def deliver : JsonText → Option Visit
  | .null => some .unit
  | .bool value => some (.bool value)
  | .number number => deliverNumber nearest number
  | .string value => some (.str value)
  | .array items => (deliverItems items).map .seq
  | .object members => (deliverMembers members).map .map

def deliverItems : List JsonText → Option (List Visit)
  | [] => some []
  | item :: items => do
      let first ← deliver item
      let others ← deliverItems items
      some (first :: others)

def deliverMembers :
    List (String × JsonText) → Option (List (String × Visit))
  | [] => some []
  | (key, value) :: members => do
      let first ← deliver value
      let others ← deliverMembers members
      some ((key, first) :: others)

end

mutual

theorem delivers_deliver : ∀ said : JsonText,
    (∀ number ∈ said.numbers, (nearest number).isSome) →
      ∃ visits, deliver nearest said = some visits
        ∧ Delivers nearest said visits
  | .null, _ => ⟨_, rfl, .null⟩
  | .bool value, _ => ⟨_, rfl, .bool value⟩
  | .string value, _ => ⟨_, rfl, .str value⟩
  | .number number, inRange => by
      obtain ⟨value, found⟩ := Option.isSome_iff_exists.mp
        (inRange number List.mem_cons_self)
      rw [deliver, deliverNumber]
      split_ifs with whole
      · refine ⟨_, rfl, ?_⟩
        conv => rw [whole.1]
        exact .u64 _ whole.2
      · exact ⟨.f64 value, by rw [found]; rfl, .f64 found⟩
  | .array items, inRange => by
      obtain ⟨visits, given, delivered⟩ := delivers_deliverItems items inRange
      exact ⟨.seq visits, by rw [deliver, given]; rfl, .seq delivered⟩
  | .object members, inRange => by
      obtain ⟨entries, given, delivered⟩ :=
        delivers_deliverMembers members inRange
      exact ⟨.map entries, by rw [deliver, given]; rfl, .map delivered⟩

theorem delivers_deliverItems : ∀ items : List JsonText,
    (∀ number ∈ JsonText.numbersItems items, (nearest number).isSome) →
      ∃ visits, deliverItems nearest items = some visits
        ∧ DeliversItems nearest items visits
  | [], _ => ⟨[], rfl, .nil⟩
  | item :: items, inRange => by
      rw [JsonText.numbersItems, List.forall_mem_append] at inRange
      obtain ⟨first, given, delivered⟩ := delivers_deliver item inRange.1
      obtain ⟨others, also, rest⟩ := delivers_deliverItems items inRange.2
      exact ⟨first :: others, by rw [deliverItems, given, also]; rfl,
        .cons delivered rest⟩

theorem delivers_deliverMembers : ∀ members : List (String × JsonText),
    (∀ number ∈ JsonText.numbersMembers members, (nearest number).isSome) →
      ∃ entries, deliverMembers nearest members = some entries
        ∧ DeliversMembers nearest members entries
  | [], _ => ⟨[], rfl, .nil⟩
  | (key, value) :: members, inRange => by
      rw [JsonText.numbersMembers, List.forall_mem_append] at inRange
      obtain ⟨first, given, delivered⟩ := delivers_deliver value inRange.1
      obtain ⟨others, also, rest⟩ := delivers_deliverMembers members inRange.2
      exact ⟨(key, first) :: others, by rw [deliverMembers, given, also]; rfl,
        .cons delivered rest⟩

end

/-- The deserializer that reads the grammar and gives up at the limit. -/
def grammarReader : SerdeJson nearest where
  from_str text := (JsonText.read text).bind fun said =>
    if said.depth < recursionLimit then deliver nearest said else none
  delivers text said read shallow inRange := by
    rw [read, Option.bind_some, if_pos shallow]
    exact delivers_deliver nearest said inRange
  limited text said read deep := by
    rw [read, Option.bind_some, if_neg (Nat.not_lt_of_le deep)]

end Deserializer

/-- An array that holds an array, so many deep. -/
def nestedArrays : Nat → Json
  | 0 => .array []
  | deeper + 1 => .array [nestedArrays deeper]

theorem depth_nestedArrays (deep : Nat) :
    (nestedArrays deep).depth = deep + 1 := by
  induction deep with
  | zero => rfl
  | succ deeper inductionHypothesis =>
      rw [nestedArrays, Json.depth, depthOfItems, depthOfItems,
        inductionHypothesis, Nat.max_zero]

theorem wellFormed_nestedArrays (deep : Nat) :
    (nestedArrays deep).WellFormed := by
  induction deep with
  | zero => trivial
  | succ deeper inductionHypothesis => exact ⟨inductionHypothesis, trivial⟩

theorem eachNumber_nestedArrays (holds : Dyadic → Prop) (deep : Nat) :
    (nestedArrays deep).EachNumber holds := by
  induction deep with
  | zero => trivial
  | succ deeper inductionHypothesis => exact ⟨inductionHypothesis, trivial⟩

/-- Arrays nested as deep as the parser gives up at are printed and refused. -/
theorem nested_arrays_refused :
    (nestedArrays 127).depth = recursionLimit
      ∧ ¬∀ (nearest : ℚ → Option Dyadic) (scientific : Scientific)
          (serde : SerdeJson nearest) (value : Json),
        value.WellFormed → value.EachNumber (ReadsBack nearest scientific) →
          parse nearest serde (Json.stringify scientific value) = some value := by
  refine ⟨depth_nestedArrays 127, ?_⟩
  intro survives
  have parsed := survives (fun number => some (number.toDyadic 1074)) oneDigit
    (grammarReader _) (nestedArrays 127) (wellFormed_nestedArrays 127)
    (eachNumber_nestedArrays _ 127)
  have refused := parse_writeValue
    (grammarReader fun number => some (number.toDyadic 1074))
    (by simp [Spaces] : Spaces ((none : Option (List Char)).getD []))
    (wellFormed_nestedArrays 127)
    (eachNumber_nestedArrays
      (ReadsBack (fun number => some (number.toDyadic 1074)) oneDigit) 127)
  rw [depth_nestedArrays, if_neg (by decide)] at refused
  rw [Json.stringify, refused] at parsed
  cases parsed

/-- An object of an array index, a name out of order and a name that nests. -/
def nestedObject : Json :=
  .object [("7", .number 4), ("b", .array [.string "\"", .null]),
    ("a", .object [])]

theorem nested_object_survives :
    parse (fun number => some (number.toDyadic 1074)) (grammarReader _)
        (Json.stringify oneDigit nestedObject) = some nestedObject
      ∧ parse (fun number => some (number.toDyadic 1074)) (grammarReader _)
          (stringifyPretty oneDigit nestedObject) = some nestedObject := by
  refine (order_survives_printing.2 _ oneDigit (grammarReader _) nestedObject
    (by decide +kernel) ?_).1 (by decide)
  have four : ReadsBack (fun number => some (number.toDyadic 1074)) oneDigit
      4 :=
    ⟨fun _ => by decide +kernel, by decide +kernel⟩
  exact ⟨four, ⟨trivial, trivial, trivial⟩, trivial, trivial⟩

end Clerkenwell.Codegen
