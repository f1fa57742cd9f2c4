import Mathlib.Data.List.Induction
import Mathlib.Data.List.Nodup
import Mathlib.Data.List.TakeWhile
import Mathlib.Data.Nat.Digits.Defs

/-!
# The JSON values the generator reads and writes

An object iterates its array-index keys first, in numeric order, and every
other key in insertion order.  Its members are listed in that order here, and
`Ordered` is what every object built by `insert` keeps.

A number is a finite double, kept as the dyadic rational it denotes.
-/

namespace Clerkenwell.Codegen

/-- A JSON value. -/
inductive Json where
  | null
  | bool (value : Bool)
  | number (value : Dyadic)
  | string (value : String)
  | array (items : List Json)
  | object (members : List (String × Json))

/-- The members of an object. -/
abbrev Members := List (String × Json)

/-! ## Array indices -/

/-- The value of a decimal digit. -/
def digitValue (digit : Char) : Nat :=
  digit.toNat - '0'.toNat

/-- The number a list of decimal digits spells. -/
def decimal (digits : List Char) : Nat :=
  digits.foldl (fun value digit => value * 10 + digitValue digit) 0

/-- The value of `key` as an ECMAScript array index, if it is one. -/
def arrayIndex (key : String) : Option Nat :=
  let canonical :=
    key = "0" || (key.toList.head? != some '0' && !key.isEmpty)
  if !canonical || !key.toList.all Char.isDigit then none
  else if decimal key.toList < 2 ^ 32 - 1 then some (decimal key.toList)
  else none

theorem decimal_eq_ofDigits (digits : List Char) :
    decimal digits = Nat.ofDigits 10 (digits.reverse.map digitValue) := by
  unfold decimal
  induction digits using List.reverseRecOn with
  | nil => simp
  | append_singleton digits digit inductionHypothesis =>
      rw [List.foldl_append, List.reverse_append]
      simp [Nat.ofDigits_cons, inductionHypothesis, Nat.mul_comm, Nat.add_comm]

theorem isDigit_iff (digit : Char) :
    digit.isDigit = true ↔ 48 ≤ digit.toNat ∧ digit.toNat ≤ 57 := by
  simp only [Char.isDigit, Bool.and_eq_true, decide_eq_true_eq, ge_iff_le,
    UInt32.le_iff_toNat_le]
  rfl

theorem digitValue_lt {digit : Char} (isDigit : digit.isDigit = true) :
    digitValue digit < 10 := by
  have bounds := (isDigit_iff digit).mp isDigit
  change digit.toNat - 48 < 10
  omega

theorem digitValue_inj {left right : Char} (left_digit : left.isDigit = true)
    (right_digit : right.isDigit = true)
    (same : digitValue left = digitValue right) : left = right := by
  have left_bounds := (isDigit_iff left).mp left_digit
  have right_bounds := (isDigit_iff right).mp right_digit
  change left.toNat - 48 = right.toNat - 48 at same
  exact Char.toNat_inj.mp (by omega)

theorem eq_of_map_digitValue {left right : List Char}
    (left_digits : ∀ digit ∈ left, digit.isDigit = true)
    (right_digits : ∀ digit ∈ right, digit.isDigit = true)
    (same : left.map digitValue = right.map digitValue) : left = right := by
  induction left generalizing right with
  | nil => simpa [eq_comm] using same
  | cons digit rest inductionHypothesis =>
      cases right with
      | nil => simp at same
      | cons other others =>
          rw [List.map_cons, List.map_cons, List.cons.injEq] at same
          rw [digitValue_inj (left_digits digit (by simp))
            (right_digits other (by simp)) same.1,
            inductionHypothesis
              (fun digit within => left_digits digit (by simp [within]))
              (fun digit within => right_digits digit (by simp [within]))
              same.2]

/-- Decimal digits that do not begin with zero are told apart by their number. -/
theorem decimal_inj {left right : List Char}
    (left_digits : ∀ digit ∈ left, digit.isDigit = true)
    (right_digits : ∀ digit ∈ right, digit.isDigit = true)
    (left_canonical : left.head? ≠ some '0')
    (right_canonical : right.head? ≠ some '0')
    (same : decimal left = decimal right) : left = right := by
  have digits_of : ∀ text : List Char,
      (∀ digit ∈ text, digit.isDigit = true) → text.head? ≠ some '0' →
        Nat.digits 10 (decimal text) = text.reverse.map digitValue := by
    intro text digits canonical
    rw [decimal_eq_ofDigits]
    apply Nat.digits_ofDigits 10 (by decide)
    · intro value member
      obtain ⟨digit, within, rfl⟩ := List.mem_map.mp member
      exact digitValue_lt (digits digit (List.mem_reverse.mp within))
    · intro nonempty zero
      cases text with
      | nil => simp at nonempty
      | cons first rest =>
          have last : digitValue first = digitValue '0' := by
            simpa [digitValue] using zero
          exact canonical (by
            rw [List.head?_cons, digitValue_inj (digits first (by simp))
              (by decide) last])
  have reversed : left.reverse.map digitValue = right.reverse.map digitValue := by
    rw [← digits_of left left_digits left_canonical,
      ← digits_of right right_digits right_canonical, same]
  have mapped : left.map digitValue = right.map digitValue := by
    simpa [List.map_reverse] using reversed
  exact eq_of_map_digitValue left_digits right_digits mapped

/-- Two keys with one index are one key. -/
theorem arrayIndex_inj {left right : String} {index : Nat}
    (left_index : arrayIndex left = some index)
    (right_index : arrayIndex right = some index) : left = right := by
  have read : ∀ {key : String}, arrayIndex key = some index →
      (∀ digit ∈ key.toList, digit.isDigit = true)
        ∧ decimal key.toList = index
        ∧ (key = "0" ∨ (key.toList.head? ≠ some '0' ∧ key ≠ "")) := by
    intro key found
    simp only [arrayIndex] at found
    split_ifs at found with refused small
    simp only [Bool.or_eq_true, Bool.not_eq_true', not_or, Bool.not_eq_false,
      decide_eq_true_eq, Bool.and_eq_true, bne_iff_ne, ne_eq,
      List.all_eq_true] at refused
    refine ⟨refused.2, Option.some.inj found, ?_⟩
    simpa using refused.1
  obtain ⟨left_digits, left_value, left_canonical⟩ := read left_index
  obtain ⟨right_digits, right_value, right_canonical⟩ := read right_index
  have positive : ∀ {key : String},
      (∀ digit ∈ key.toList, digit.isDigit = true) →
        key.toList.head? ≠ some '0' → key ≠ "" → decimal key.toList ≠ 0 := by
    intro key digits canonical nonempty zero
    have same := @decimal_inj key.toList [] digits (by simp) canonical (by simp)
      zero
    exact nonempty (by simpa using same)
  rcases left_canonical with rfl | ⟨left_canonical, left_nonempty⟩
  · rcases right_canonical with rfl | ⟨right_canonical, right_nonempty⟩
    · rfl
    · exact absurd (right_value.trans left_value.symm)
        (positive right_digits right_canonical right_nonempty)
  · rcases right_canonical with rfl | ⟨right_canonical, right_nonempty⟩
    · exact absurd (left_value.trans right_value.symm)
        (positive left_digits left_canonical left_nonempty)
    · exact String.toList_inj.mp (decimal_inj left_digits right_digits
        left_canonical right_canonical (left_value.trans right_value.symm))

/-! ## Objects -/

/-- Whether array indices, or their absence, may stand in this order. -/
def indexBefore : Option Nat → Option Nat → Prop
  | some index, some next => index < next
  | some _, none => True
  | none, some _ => False
  | none, none => True

/-- Whether keys may stand in this order, by the array indices they are. -/
def indexedBefore (earlier later : String) : Prop :=
  indexBefore (arrayIndex earlier) (arrayIndex later)

namespace Members

/-- The value of the member `key`. -/
def get? (members : Members) (key : String) : Option Json :=
  members.lookup key

def containsKey (members : Members) (key : String) : Bool :=
  (members.get? key).isSome

/-- The members' names, in order. -/
def keys (members : Members) : List String :=
  members.map Prod.fst

/--
Assigns `key`: an existing key keeps its position, a new one takes the position
its array index gives it, or the last.
-/
def insert (members : Members) (key : String) (value : Json) : Members :=
  if members.containsKey key then
    members.map fun member => if member.1 = key then (key, value) else member
  else
    match arrayIndex key with
    | some index =>
        let lower := fun member : String × Json =>
          (arrayIndex member.1).any fun other => other < index
        members.takeWhile lower ++ (key, value) :: members.dropWhile lower
    | none => members ++ [(key, value)]

/-- `{ ...members, ...other }`. -/
def spread (members other : Members) : Members :=
  other.foldl (fun members member => members.insert member.1 member.2) members

/-- The object built by inserting members one after another. -/
def ofMembers (members : Members) : Members :=
  spread [] members

/-- What every object keeps: each key once, and array indices first, in order. -/
structure Ordered (members : Members) : Prop where
  nodup : members.keys.Nodup
  indexed : members.keys.Pairwise indexedBefore

@[simp]
theorem keys_nil : keys [] = [] :=
  rfl

@[simp]
theorem keys_cons (member : String × Json) (rest : Members) :
    keys (member :: rest) = member.1 :: keys rest :=
  rfl

theorem get?_cons (member : String × Json) (rest : Members) (key : String) :
    get? (member :: rest) key
      = if key = member.1 then some member.2 else get? rest key := by
  obtain ⟨name, value⟩ := member
  unfold get?
  rw [List.lookup_cons]
  by_cases same : key = name
  · simp [same]
  · rw [beq_eq_false_iff_ne.mpr same, if_neg same]

theorem containsKey_iff (members : Members) (key : String) :
    members.containsKey key = true ↔ key ∈ members.keys := by
  unfold containsKey
  induction members with
  | nil => simp [get?]
  | cons member rest inductionHypothesis =>
      rw [get?_cons, keys_cons, List.mem_cons]
      by_cases same : key = member.1
      · simp [same]
      · simp [same, inductionHypothesis]

theorem get?_eq_none_iff (members : Members) (key : String) :
    members.get? key = none ↔ key ∉ members.keys := by
  rw [← containsKey_iff, containsKey]
  cases members.get? key <;> simp

theorem mem_of_get? {members : Members} {key : String} {value : Json}
    (held : members.get? key = some value) : (key, value) ∈ members := by
  induction members with
  | nil => simp [get?] at held
  | cons member rest inductionHypothesis =>
      rw [get?_cons] at held
      split_ifs at held with same
      · obtain rfl := Option.some.inj held
        exact same ▸ List.mem_cons_self
      · exact List.mem_cons_of_mem _ (inductionHypothesis held)

/-- With each key once, a member is what its key is looked up as. -/
theorem get?_eq_some_iff {members : Members} (nodup : members.keys.Nodup)
    (key : String) (value : Json) :
    members.get? key = some value ↔ (key, value) ∈ members := by
  induction members with
  | nil => simp [get?]
  | cons member rest inductionHypothesis =>
      obtain ⟨name, held⟩ := member
      rw [keys_cons, List.nodup_cons] at nodup
      rw [get?_cons, List.mem_cons]
      by_cases same : key = name
      · subst same
        have absent : (key, value) ∉ rest := fun within =>
          nodup.1 (List.mem_map.mpr ⟨_, within, rfl⟩)
        simp [absent, eq_comm]
      · simp [same, inductionHypothesis nodup.2]

/-- Members that name each key once are those looked up, in some order. -/
theorem perm_of_get? {members others : Members} (nodup : members.keys.Nodup)
    (others_nodup : others.keys.Nodup)
    (same : ∀ key, members.get? key = others.get? key) :
    members.Perm others := by
  refine (List.perm_ext_iff_of_nodup (List.Nodup.of_map _ nodup)
    (List.Nodup.of_map _ others_nodup)).mpr ?_
  rintro ⟨key, value⟩
  rw [← get?_eq_some_iff nodup, ← get?_eq_some_iff others_nodup, same]

theorem insert_of_containsKey {members : Members} {key : String}
    (held : key ∈ members.keys) (value : Json) :
    members.insert key value
      = members.map fun member =>
          if member.1 = key then (key, value) else member := by
  rw [insert, if_pos ((containsKey_iff members key).mpr held)]

/-- A key that is no array index is added last. -/
theorem insert_of_not_index {members : Members} {key : String}
    (absent : key ∉ members.keys) (name : arrayIndex key = none)
    (value : Json) : members.insert key value = members ++ [(key, value)] := by
  rw [insert, if_neg (by rwa [containsKey_iff]), name]

/-- Whether a member's key is a lower array index. -/
abbrev lower (index : Nat) (member : String × Json) : Bool :=
  (arrayIndex member.1).any fun other => other < index

/-- An array index is added before the first key that is not a lower one. -/
theorem insert_of_index {members : Members} {key : String} {index : Nat}
    (absent : key ∉ members.keys) (indexed : arrayIndex key = some index)
    (value : Json) :
    members.insert key value
      = members.takeWhile (lower index)
          ++ (key, value) :: members.dropWhile (lower index) := by
  rw [insert, if_neg (by rwa [containsKey_iff]), indexed]

theorem keys_insert_of_mem {members : Members} {key : String}
    (held : key ∈ members.keys) (value : Json) :
    (members.insert key value).keys = members.keys := by
  rw [insert_of_containsKey held, keys, keys, List.map_map]
  apply List.map_congr_left
  intro member _
  by_cases same : member.1 = key <;> simp [same]

/-- A new key is the only one an assignment adds. -/
theorem keys_insert_perm {members : Members} {key : String}
    (absent : key ∉ members.keys) (value : Json) :
    (members.insert key value).keys.Perm (key :: members.keys) := by
  cases indexed : arrayIndex key with
  | none =>
      rw [insert_of_not_index absent indexed, keys, List.map_append]
      exact List.perm_append_comm
  | some index =>
      rw [insert_of_index absent indexed, keys, List.map_append, List.map_cons]
      refine List.perm_middle.trans (List.Perm.cons key ?_)
      rw [← List.map_append, List.takeWhile_append_dropWhile]
      exact List.Perm.refl _

theorem mem_keys_insert (members : Members) (key : String) (value : Json)
    (name : String) :
    name ∈ (members.insert key value).keys ↔ name = key ∨ name ∈ members.keys := by
  by_cases held : key ∈ members.keys
  · rw [keys_insert_of_mem held]
    constructor
    · exact Or.inr
    · rintro (rfl | within)
      · exact held
      · exact within
  · rw [(keys_insert_perm held value).mem_iff, List.mem_cons]

theorem nodup_insert {members : Members} (nodup : members.keys.Nodup)
    (key : String) (value : Json) : (members.insert key value).keys.Nodup := by
  by_cases held : key ∈ members.keys
  · rwa [keys_insert_of_mem held]
  · rw [(keys_insert_perm held value).nodup_iff]
    exact List.nodup_cons.mpr ⟨held, nodup⟩

/-- What comes after a key comes after whatever comes before that key. -/
theorem indexedBefore_trans {first second third : String}
    (before : indexedBefore first second) (after : indexedBefore second third) :
    indexedBefore first third := by
  unfold indexedBefore at *
  cases one : arrayIndex first <;> cases two : arrayIndex second <;>
    cases three : arrayIndex third <;> simp_all [indexBefore]
  omega

/-- Assigning a member keeps an object in its order. -/
theorem Ordered.insert {members : Members} (ordered : members.Ordered)
    (key : String) (value : Json) : (members.insert key value).Ordered := by
  refine ⟨nodup_insert ordered.nodup key value, ?_⟩
  by_cases held : key ∈ members.keys
  · rw [keys_insert_of_mem held]
    exact ordered.indexed
  cases indexed : arrayIndex key with
  | none =>
      rw [insert_of_not_index held indexed, keys, List.map_append,
        List.pairwise_append]
      refine ⟨ordered.indexed, by simp, ?_⟩
      intro earlier _ later same
      obtain rfl : later = key := by simpa using same
      rw [indexedBefore, indexed]
      cases arrayIndex earlier <;> trivial
  | some index =>
      have split := ordered.indexed
      rw [← List.takeWhile_append_dropWhile (l := members) (p := lower index),
        keys, List.map_append, List.pairwise_append] at split
      obtain ⟨low, high, across⟩ := split
      rw [insert_of_index held indexed, keys, List.map_append, List.map_cons,
        List.pairwise_append, List.pairwise_cons]
      have below : ∀ earlier ∈ (members.takeWhile (lower index)).map Prod.fst,
          indexedBefore earlier key := by
        intro earlier within
        obtain ⟨member, taken, rfl⟩ := List.mem_map.mp within
        have less := List.mem_takeWhile_imp taken
        rw [indexedBefore, indexed]
        cases own : arrayIndex member.1 with
        | none => simp [lower, own] at less
        | some other => simpa [indexBefore, lower, own] using less
      have above : ∀ later ∈ (members.dropWhile (lower index)).map Prod.fst,
          indexedBefore key later := by
        cases rest : members.dropWhile (lower index) with
        | nil => simp
        | cons first others =>
            have stops := List.head_dropWhile_not (l := members) (lower index)
              (by simp [rest])
            have first_within : first.1 ∈ members.keys := by
              have within : first ∈ members.dropWhile (lower index) := by
                simp [rest]
              exact List.mem_map_of_mem
                ((List.dropWhile_suffix _).subset within)
            have first_above : indexedBefore key first.1 := by
              rw [indexedBefore, indexed]
              cases own : arrayIndex first.1 with
              | none => trivial
              | some other =>
                  have not_lower : index ≤ other := by
                    simpa [rest, lower, own] using stops
                  have different : index ≠ other := fun same =>
                    held (arrayIndex_inj indexed (same ▸ own) ▸ first_within)
                  exact Nat.lt_of_le_of_ne not_lower different
            rw [rest, List.map_cons, List.pairwise_cons] at high
            intro later within
            rw [List.map_cons, List.mem_cons] at within
            rcases within with rfl | after
            · exact first_above
            · exact indexedBefore_trans first_above (high.1 later after)
      refine ⟨low, ⟨above, high⟩, ?_⟩
      intro earlier within later after
      rcases List.mem_cons.mp after with rfl | after
      · exact below earlier within
      · exact across earlier within later after

theorem get?_insert {members : Members} (nodup : members.keys.Nodup)
    (key : String) (value : Json) (name : String) :
    (members.insert key value).get? name
      = if name = key then some value else members.get? name := by
  have mem_insert : ∀ (name : String) (held : Json),
      (name, held) ∈ members.insert key value
        ↔ (name = key ∧ held = value) ∨ (name ≠ key ∧ (name, held) ∈ members) := by
    intro name held
    by_cases present : key ∈ members.keys
    · rw [insert_of_containsKey present, List.mem_map]
      constructor
      · rintro ⟨member, within, same⟩
        split_ifs at same with this
        · obtain ⟨rfl, rfl⟩ := Prod.ext_iff.mp same
          exact Or.inl ⟨rfl, rfl⟩
        · subst same
          exact Or.inr ⟨this, within⟩
      · rintro (⟨rfl, rfl⟩ | ⟨different, within⟩)
        · obtain ⟨member, within, same⟩ := List.mem_map.mp present
          exact ⟨member, within, if_pos same⟩
        · exact ⟨(name, held), within, if_neg different⟩
    · have around : (name, held) ∈ members.insert key value
          ↔ (name, held) = (key, value) ∨ (name, held) ∈ members := by
        cases indexed : arrayIndex key with
        | none =>
            rw [insert_of_not_index present indexed, List.mem_append,
              List.mem_singleton, or_comm]
        | some index =>
            rw [insert_of_index present indexed, List.mem_append, List.mem_cons,
              or_left_comm, ← List.mem_append, List.takeWhile_append_dropWhile]
      rw [around, Prod.mk.injEq]
      constructor
      · rintro (same | within)
        · exact Or.inl same
        · refine Or.inr ⟨fun same => present ?_, within⟩
          exact same ▸ List.mem_map.mpr ⟨_, within, rfl⟩
      · rintro (same | ⟨-, within⟩)
        · exact Or.inl same
        · exact Or.inr within
  apply Option.ext
  intro held
  rw [get?_eq_some_iff (nodup_insert nodup key value), mem_insert]
  split_ifs with same
  · simp [same, eq_comm]
  · simp [same, get?_eq_some_iff nodup]

section Spreading

variable {members other : Members}

theorem Ordered.spread (ordered : members.Ordered) (other : Members) :
    (members.spread other).Ordered := by
  induction other generalizing members with
  | nil => exact ordered
  | cons member rest inductionHypothesis =>
      exact inductionHypothesis (ordered.insert member.1 member.2)

theorem ordered_nil : Ordered [] where
  nodup := List.nodup_nil
  indexed := List.Pairwise.nil

theorem ordered_ofMembers (members : Members) : (ofMembers members).Ordered :=
  ordered_nil.spread members

theorem get?_spread (nodup : members.keys.Nodup)
    (other_nodup : other.keys.Nodup) (name : String) :
    (members.spread other).get? name = (other.get? name).or (members.get? name) := by
  induction other generalizing members with
  | nil => rfl
  | cons member rest inductionHypothesis =>
      obtain ⟨key, value⟩ := member
      obtain ⟨absent, rest_nodup⟩ := List.nodup_cons.mp other_nodup
      change ((members.insert key value).spread rest).get? name = _
      rw [inductionHypothesis (nodup_insert nodup key value) rest_nodup,
        get?_insert nodup, get?_cons]
      by_cases same : name = key
      · subst same
        rw [(get?_eq_none_iff rest name).mpr absent]
        simp
      · simp [same]

/-- Built from members that name each key once, an object holds just these. -/
theorem get?_ofMembers (nodup : members.keys.Nodup) (name : String) :
    (ofMembers members).get? name = members.get? name := by
  rw [ofMembers, get?_spread ordered_nil.nodup nodup]
  cases members.get? name <;> rfl

theorem mem_keys_ofMembers (nodup : members.keys.Nodup) (name : String) :
    name ∈ (ofMembers members).keys ↔ name ∈ members.keys := by
  rw [← containsKey_iff, ← containsKey_iff, containsKey, containsKey,
    get?_ofMembers nodup]

/-- The keys that are no array indices, in order. -/
def names (members : Members) : List String :=
  members.keys.filter fun key => arrayIndex key = none

theorem names_insert (absent : key ∉ members.keys) (value : Json) :
    (members.insert key value).names
      = members.names ++ [key].filter fun key => arrayIndex key = none := by
  cases indexed : arrayIndex key with
  | none =>
      rw [insert_of_not_index absent indexed, names, names, keys, List.map_append,
        List.filter_append]
      rfl
  | some index =>
      rw [insert_of_index absent indexed, names, keys, List.map_append,
        List.map_cons, List.filter_append,
        List.filter_cons_of_neg (by simp [indexed]), ← List.filter_append,
        ← List.map_append, List.takeWhile_append_dropWhile]
      simp [names, keys, indexed]

/-- Keys that are no array indices keep the order they are inserted in. -/
theorem names_spread (other_nodup : other.keys.Nodup)
    (apart : ∀ key ∈ other.keys, key ∉ members.keys) :
    (members.spread other).names = members.names ++ other.names := by
  induction other generalizing members with
  | nil => simp [spread, names, keys]
  | cons member rest inductionHypothesis =>
      obtain ⟨key, value⟩ := member
      obtain ⟨absent, rest_nodup⟩ := List.nodup_cons.mp other_nodup
      have fresh : key ∉ members.keys := apart key List.mem_cons_self
      change ((members.insert key value).spread rest).names = _
      rw [inductionHypothesis rest_nodup, names_insert fresh, List.append_assoc,
        names, names, ← List.filter_append]
      · rfl
      · intro name within held
        rcases (mem_keys_insert members key value name).mp held with rfl | held
        · exact absent within
        · exact apart name (List.mem_cons_of_mem _ within) held

theorem insert_perm (absent : key ∉ members.keys) (value : Json) :
    (members.insert key value).Perm ((key, value) :: members) := by
  cases indexed : arrayIndex key with
  | none =>
      rw [insert_of_not_index absent indexed]
      exact List.perm_append_comm
  | some index =>
      rw [insert_of_index absent indexed]
      refine List.perm_middle.trans (List.Perm.cons _ ?_)
      rw [List.takeWhile_append_dropWhile]

/-- Spread over other keys, members are added to those there were. -/
theorem spread_perm (other_nodup : other.keys.Nodup)
    (apart : ∀ key ∈ other.keys, key ∉ members.keys) :
    (members.spread other).Perm (other ++ members) := by
  induction other generalizing members with
  | nil => exact List.Perm.refl members
  | cons member rest inductionHypothesis =>
      obtain ⟨key, value⟩ := member
      obtain ⟨absent, rest_nodup⟩ := List.nodup_cons.mp other_nodup
      have fresh : key ∉ members.keys := apart key List.mem_cons_self
      change ((members.insert key value).spread rest).Perm _
      refine (inductionHypothesis rest_nodup ?_).trans
        (((insert_perm fresh value).append_left rest).trans List.perm_middle)
      intro name within held
      rcases (mem_keys_insert members key value name).mp held with rfl | held
      · exact absent within
      · exact apart name (List.mem_cons_of_mem _ within) held

theorem ofMembers_perm (nodup : members.keys.Nodup) :
    (ofMembers members).Perm members := by
  have spread := @spread_perm [] members nodup (by simp)
  rwa [List.append_nil] at spread

theorem names_ofMembers (nodup : members.keys.Nodup) :
    (ofMembers members).names = members.names :=
  names_spread nodup (by simp [keys])

end Spreading

/-! ## Leaving members out -/

section LeavingOut

variable {members other : Members}

/-- Where those a test holds of come first, it splits a list in two. -/
theorem takeWhile_eq_filter {Item : Type} {test : Item → Bool}
    {items : List Item}
    (first : items.Pairwise fun earlier later => test later → test earlier) :
    items.takeWhile test = items.filter test
      ∧ items.dropWhile test = items.filter fun item => !test item := by
  induction items with
  | nil => exact ⟨rfl, rfl⟩
  | cons item rest inductionHypothesis =>
      obtain ⟨before, rest_first⟩ := List.pairwise_cons.mp first
      obtain ⟨taken, dropped⟩ := inductionHypothesis rest_first
      cases held : test item with
      | true => simp [held, taken, dropped]
      | false =>
          have none_after : ∀ later ∈ rest, test later = false := by
            intro later within
            by_contra holds
            have also := before later within (by simpa using holds)
            rw [held] at also
            cases also
          constructor
          · rw [List.takeWhile_cons_of_neg (by simp [held]),
              List.filter_cons_of_neg (by simp [held])]
            exact (List.filter_eq_nil_iff.mpr fun later within => by
              simp [none_after later within]).symm
          · rw [List.dropWhile_cons_of_neg (by simp [held]),
              List.filter_cons_of_pos (by simp [held])]
            congr 1
            exact (List.filter_eq_self.mpr fun later within => by
              simp [none_after later within]).symm

theorem Ordered.lower_first (ordered : members.Ordered) (index : Nat) :
    members.Pairwise fun earlier later =>
      lower index later → lower index earlier := by
  refine (List.pairwise_map.mp ordered.indexed).imp ?_
  intro earlier later before below
  unfold indexedBefore at before
  unfold lower at *
  cases one : arrayIndex earlier.1 <;> cases two : arrayIndex later.1 <;>
    simp_all [indexBefore]
  omega

/-- Leaving out one key, an assignment of another is as it was. -/
theorem filter_insert (ordered : members.Ordered) {key left_out : String}
    (other : key ≠ left_out) (value : Json) :
    (members.insert key value).filter (fun member => member.1 ≠ left_out)
      = insert (members.filter fun member => member.1 ≠ left_out) key value := by
  have kept : key ∈ keys (members.filter fun member => member.1 ≠ left_out)
      ↔ key ∈ members.keys := by
    simp only [keys, List.mem_map, List.mem_filter]
    constructor
    · rintro ⟨member, ⟨within, -⟩, same⟩
      exact ⟨member, within, same⟩
    · rintro ⟨member, within, rfl⟩
      exact ⟨member, ⟨within, by simpa using other⟩, rfl⟩
  by_cases held : key ∈ members.keys
  · rw [insert_of_containsKey held, insert_of_containsKey (kept.mpr held),
      List.filter_map]
    congr 1
    apply List.filter_congr
    intro member _
    by_cases same : member.1 = key
    · simp [same, other]
    · simp [same]
  · have absent := fun within => held (kept.mp within)
    cases indexed : arrayIndex key with
    | none =>
        rw [insert_of_not_index held indexed,
          insert_of_not_index absent indexed, List.filter_append]
        simp [other]
    | some index =>
        have filtered_first := (ordered.lower_first index).filter
          fun member => decide (member.1 ≠ left_out)
        rw [insert_of_index held indexed, insert_of_index absent indexed,
          (takeWhile_eq_filter (ordered.lower_first index)).1,
          (takeWhile_eq_filter (ordered.lower_first index)).2,
          (takeWhile_eq_filter filtered_first).1,
          (takeWhile_eq_filter filtered_first).2, List.filter_append,
          List.filter_cons_of_pos (by simpa using other), List.filter_filter,
          List.filter_filter, List.filter_filter, List.filter_filter]
        simp only [Bool.and_comm]

/-- An object built anew from an object's members is that object. -/
theorem ofMembers_of_ordered (ordered : members.Ordered) :
    ofMembers members = members := by
  induction members using List.reverseRecOn with
  | nil => rfl
  | append_singleton members member inductionHypothesis =>
      obtain ⟨key, value⟩ := member
      have nodup := ordered.nodup
      have indexed := ordered.indexed
      rw [keys, List.map_append, List.nodup_append] at nodup
      rw [keys, List.map_append, List.pairwise_append] at indexed
      have absent : key ∉ keys members := fun within =>
        nodup.2.2 key within key (by simp) rfl
      have rebuilt := inductionHypothesis ⟨nodup.1, indexed.1⟩
      rw [ofMembers, spread] at rebuilt
      rw [ofMembers, spread, List.foldl_append, rebuilt]
      change insert members key value = _
      cases own : arrayIndex key with
      | none => exact insert_of_not_index absent own value
      | some index =>
          have all_lower : ∀ earlier ∈ members, lower index earlier = true := by
            intro earlier within
            have before := indexed.2.2 earlier.1
              (List.mem_map_of_mem within) key (by simp)
            unfold indexedBefore at before
            rw [own] at before
            unfold lower
            cases other : arrayIndex earlier.1 with
            | none => rw [other] at before; cases before
            | some lesser =>
                rw [other] at before
                simpa [indexBefore] using before
          rw [insert_of_index absent own, List.takeWhile_eq_self_iff.mpr all_lower,
            List.dropWhile_eq_nil_iff.mpr all_lower]

/-- Leaving out a key that is not spread, a spread is as it was. -/
theorem filter_spread (ordered : members.Ordered) {left_out : String}
    (absent : left_out ∉ other.keys) :
    (members.spread other).filter (fun member => member.1 ≠ left_out)
      = spread (members.filter fun member => member.1 ≠ left_out) other := by
  induction other generalizing members with
  | nil => rfl
  | cons member rest inductionHypothesis =>
      obtain ⟨key, value⟩ := member
      rw [keys_cons, List.mem_cons, not_or] at absent
      change ((members.insert key value).spread rest).filter _ = _
      rw [inductionHypothesis (ordered.insert key value) absent.2,
        filter_insert ordered (fun same => absent.1 same.symm)]
      rfl

/-- Assigning a member the value it has changes nothing. -/
theorem insert_of_get? {members : Members} (nodup : members.keys.Nodup)
    {key : String} {value : Json} (held : members.get? key = some value) :
    members.insert key value = members := by
  have within : key ∈ members.keys := by
    rw [← containsKey_iff, containsKey, held]
    rfl
  rw [insert_of_containsKey within]
  conv => rhs; rw [← List.map_id members]
  apply List.map_congr_left
  intro member present
  split
  · next same =>
      have looked := (get?_eq_some_iff nodup member.1 member.2).mpr present
      rw [same, held] at looked
      obtain rfl := Option.some.inj looked
      exact Prod.ext same.symm rfl
  · rfl

end LeavingOut

end Members

namespace Json

/-- The property `key` of an object; `none` for anything else. -/
def get? : Json → String → Option Json
  | .object members, key => Members.get? members key
  | _, _ => none

def asObject : Json → Option Members
  | .object members => some members
  | _ => none

def asArray : Json → Option (List Json)
  | .array items => some items
  | _ => none

def asStr : Json → Option String
  | .string value => some value
  | _ => none

def asNumber : Json → Option Dyadic
  | .number value => some value
  | _ => none

def asBool : Json → Option Bool
  | .bool value => some value
  | _ => none

end Json

end Clerkenwell.Codegen
