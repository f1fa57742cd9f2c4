import Clerkenwell.Client.JsonValue

/-!
# JavaScript's collections and strings

Maps by name keep their entries in the order they were first set in, and
strings sort by their UTF-16 code units.
-/

namespace Clerkenwell.Client

/-! ## Maps -/

/-- A `Map` by strings: its entries, in the order they were first set in. -/
abbrev JsMap (α : Type) := List (String × α)

namespace JsMap

variable {α : Type}

/-- `map.get(key)`. -/
def get? (map : JsMap α) (key : String) : Option α :=
  map.lookup key

/-- `map.set(key, value)`. -/
def set : JsMap α → String → α → JsMap α
  | [], key, value => [(key, value)]
  | (name, held) :: rest, key, value =>
      if name = key then (key, value) :: rest
      else (name, held) :: set rest key value

/-- `map.keys()`. -/
def keys (map : JsMap α) : List String :=
  map.map Prod.fst

theorem lookup_cons_ite (name key : String) (value : α) (rest : JsMap α) :
    List.lookup key ((name, value) :: rest)
      = if key = name then some value else List.lookup key rest := by
  rw [List.lookup_cons]
  by_cases same : key = name
  · simp [same]
  · rw [if_neg same, beq_eq_false_iff_ne.mpr same]

@[simp]
theorem get?_set (map : JsMap α) (key other : String) (value : α) :
    (map.set key value).get? other
      = if other = key then some value else map.get? other := by
  induction map with
  | nil => rw [set, get?, lookup_cons_ite, get?, List.lookup_nil]
  | cons entry rest inductionHypothesis =>
      obtain ⟨name, held⟩ := entry
      unfold get? at *
      by_cases here : name = key
      · subst here
        rw [set, if_pos rfl, lookup_cons_ite, lookup_cons_ite]
        split_ifs <;> rfl
      · rw [set, if_neg here, lookup_cons_ite, lookup_cons_ite,
          inductionHypothesis]
        by_cases named : other = name
        · subst named
          rw [if_pos rfl, if_neg here, if_pos rfl]
        · rw [if_neg named, if_neg named]

theorem mem_keys_iff (map : JsMap α) (key : String) :
    key ∈ map.keys ↔ (map.get? key).isSome = true := by
  rw [Option.isSome_iff_ne_none, ne_eq, get?, List.lookup_eq_none_iff]
  constructor
  · rintro held absent
    obtain ⟨entry, there, rfl⟩ := List.mem_map.mp held
    simpa using absent entry there
  · intro held
    by_contra absent
    apply held
    intro entry there
    rw [bne_iff_ne]
    rintro rfl
    exact absent (List.mem_map_of_mem there)

end JsMap

/-! ## Sets -/

/-- `new Set(values)`: the values in the order they first occur in. -/
def setOf (values : List String) : List String :=
  values.foldl
    (fun held value => if held.contains value then held else held ++ [value])
    []

theorem mem_setOf (values : List String) (value : String) :
    value ∈ setOf values ↔ value ∈ values := by
  have general : ∀ (rest held : List String),
      value ∈ rest.foldl
          (fun held value =>
            if held.contains value then held else held ++ [value]) held
        ↔ value ∈ held ∨ value ∈ rest := by
    intro rest
    induction rest with
    | nil => simp
    | cons first rest inductionHypothesis =>
        intro held
        rw [List.foldl_cons, inductionHypothesis, List.mem_cons]
        by_cases there : held.contains first = true
        · rw [if_pos there]
          rw [List.contains_iff_mem] at there
          constructor
          · rintro (inside | later)
            · exact Or.inl inside
            · exact Or.inr (Or.inr later)
          · rintro (inside | rfl | later)
            · exact Or.inl inside
            · exact Or.inl there
            · exact Or.inr later
        · rw [if_neg there, List.mem_append, List.mem_singleton, or_assoc]
  rw [setOf, general]
  simp

/-! ## Strings -/

/-- The UTF-16 code units of a character. -/
def charCodeUnits (character : Char) : List Nat :=
  let point := character.toNat
  if point < 0x10000 then [point]
  else
    [0xD800 + (point - 0x10000) / 0x400, 0xDC00 + (point - 0x10000) % 0x400]

/-- The UTF-16 code units of a string. -/
def codeUnits (text : String) : List Nat :=
  text.toList.flatMap charCodeUnits

/-- `strings.sort()`. -/
def sortStrings (strings : List String) : List String :=
  strings.mergeSort fun left right =>
    !decide (codeUnits right < codeUnits left)

@[simp]
theorem mem_sortStrings (strings : List String) (text : String) :
    text ∈ sortStrings strings ↔ text ∈ strings :=
  List.mem_mergeSort

end Clerkenwell.Client
