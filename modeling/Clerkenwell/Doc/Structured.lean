import Clerkenwell.Doc.Writing

/-!
# Structured maps and structured documents

A structured map holds each object under it in a map of its own.  A structured
document does too, holds each string as text, and holds a list whose elements
carry a unique identity as a map of its elements with their order.
-/

namespace Clerkenwell.Doc

open Clerkenwell.Foundation

section Structured

variable {crates : Crates}

/-! ## Structured maps -/

/-- The child of a kind under `key`, in place of anything else held there. -/
def ensureStructuredChild (kind : ContainerKind)
    (map : crates.loro.ContainerId) (key : String) :
    Writing crates crates.loro.ContainerId := do
  let held ← Writing.reading fun doc => crates.loro.mapGet doc map key
  match held with
  | none => pure ()
  | some (.inl _) => mapDelete map key
  | some (.inr (held, _)) =>
      if held = kind then pure () else mapDelete map key
  ExceptT.mk fun doc =>
    match crates.loro.ensureMergeable doc kind map key with
    | .ok (child, written) => (.ok child, written)
    | .error message => (.error (.update message), doc)

/-- The members of a value, none when it is not an object. -/
def membersOf (value : Option Json) : Members :=
  (value.bind Json.asObject).getD []

/-- Deletes the members `next` leaves out. -/
def deleteMissing (map : crates.loro.ContainerId)
    (previous next : Members) : Writing crates Unit :=
  (previous.keys.filter fun key => !next.containsKey key).forM fun key =>
    mapDelete map key

mutual

def writeStructuredMapChanges (map : crates.loro.ContainerId)
    (previous : Members) : Json → Writing crates Unit
  | .object next => do
      deleteMissing map previous next
      writeStructuredMapMembers map previous next
  | _ => pure ()

/-- Writes each member of `next` that `previous` does not hold as it is. -/
def writeStructuredMapMembers (map : crates.loro.ContainerId)
    (previous : Members) : List (String × Json) → Writing crates Unit
  | [] => pure ()
  | (key, nextValue) :: rest => do
      let previousValue := previous.get? key
      if previousValue ≠ some nextValue then
        match nextValue with
        | .object next => do
            let child ← ensureStructuredChild .map map key
            writeStructuredMapChanges child (membersOf previousValue)
              (.object next)
        | _ => mapInsert map key (jsonToLoro nextValue)
      writeStructuredMapMembers map previous rest

end


/-! ## Structured documents -/

/-- The key that marks a map as an identity-keyed list. -/
def keyedListMarker : String :=
  "$keyedBy"

def keyedListOrder : String :=
  "$order"

def keyedListItems : String :=
  "$items"

def keyedListIdentities : List String :=
  ["id", "uid"]

/-- An element's identity under a key, when it can be keyed by it. -/
def elementIdentity (identity : String) (value : Json) : Option String :=
  (value.asObject.filter fun item => !Members.containsKey item keyedListMarker)
    |>.bind (fun item => Members.get? item identity)
    |>.bind Json.asStr
    |>.filter fun key => !key.isEmpty

/-- Whether every element carries a unique identity under a key. -/
def allIdentified (identity : String) : List String → List Json → Bool
  | _, [] => true
  | seen, value :: rest =>
      match elementIdentity identity value with
      | none => false
      | some key =>
          !seen.contains key && allIdentified identity (key :: seen) rest

/-- The identity key a list of objects can be keyed by. -/
def keyedListIdentity (values : List Json) : Option String :=
  if values.isEmpty then none
  else keyedListIdentities.find? fun identity =>
    allIdentified identity [] values

/-- The elements that carry a string under `identity`, by it. -/
def listByIdentity (values : List Json) (identity : String) : Members :=
  values.foldl
    (fun members value =>
      match (value.get? identity).bind Json.asStr with
      | some key => members.insert key value
      | none => members)
    []

theorem mem_insert_value
    {members : Members} {key : String} {value : Json}
    {entry : String × Json} (held : entry ∈ members.insert key value) :
    entry.2 = value ∨ entry ∈ members := by
  induction members with
  | nil => simp_all [Members.insert]
  | cons first rest inductionHypothesis =>
      obtain ⟨name, current⟩ := first
      simp only [Members.insert] at held
      split_ifs at held
      · rcases List.mem_cons.mp held with rfl | later
        · exact Or.inl rfl
        · exact Or.inr (List.mem_cons_of_mem _ later)
      · rcases List.mem_cons.mp held with rfl | later
        · exact Or.inl rfl
        · exact Or.inr later
      · rcases List.mem_cons.mp held with rfl | later
        · exact Or.inr List.mem_cons_self
        · rcases inductionHypothesis later with same | old
          · exact Or.inl same
          · exact Or.inr (List.mem_cons_of_mem _ old)

theorem mem_listByIdentity
    {values : List Json} {identity : String} {entry : String × Json}
    (held : entry ∈ listByIdentity values identity) :
    entry.2 ∈ values := by
  have general : ∀ (rest : List Json) (members : Members),
      entry ∈ rest.foldl
        (fun members value =>
          match (value.get? identity).bind Json.asStr with
          | some key => members.insert key value
          | none => members) members →
      entry.2 ∈ rest ∨ entry ∈ members := by
    intro rest
    induction rest with
    | nil => exact fun _ there => Or.inr there
    | cons value rest inductionHypothesis =>
        intro members there
        rcases inductionHypothesis _ there with later | here
        · exact Or.inl (List.mem_cons_of_mem _ later)
        · simp only at here
          split at here
          · rcases mem_insert_value here with same | old
            · exact Or.inl (same ▸ List.mem_cons_self)
            · exact Or.inr old
          · exact Or.inr here
  rcases general values [] held with there | there
  · exact there
  · cases there

theorem sizeOf_lt_of_mem_members
    {members : List (String × Json)} {entry : String × Json}
    (held : entry ∈ members) :
    sizeOf entry.2 < sizeOf members := by
  have smaller := List.sizeOf_lt_of_mem held
  obtain ⟨key, value⟩ := entry
  simp only [Prod.mk.sizeOf_spec] at smaller ⊢
  omega

mutual

/-- Writes one structured document level. -/
def writeStructuredDocumentChanges (map : crates.loro.ContainerId)
    (previous next : Members) : Writing crates Unit := do
  deleteMissing map previous next
  next.attach.forM fun ⟨(key, nextValue), _held⟩ => do
    let previousValue := previous.get? key
    if previousValue ≠ some nextValue then
      match _shape : nextValue with
      | .string text => do
          let container ← ensureStructuredChild .text map key
          writeText container key text
      | .object nextValues =>
          if Members.containsKey nextValues keyedListMarker then
            mapInsert map key (jsonToLoro (.object nextValues))
          else do
            let child ← ensureStructuredChild .map map key
            writeStructuredDocumentChanges child (membersOf previousValue)
              nextValues
      | .array values =>
          match keyedListIdentity values with
          | some identity => do
              let child ← ensureStructuredChild .map map key
              writeKeyedListChanges child identity
                ((previousValue.bind Json.asArray).getD []) values
          | none => mapInsert map key (jsonToLoro (.array values))
      | other => mapInsert map key (jsonToLoro other)
termination_by sizeOf next
decreasing_by
  all_goals
    have smaller := sizeOf_lt_of_mem_members _held
    simp only [_shape, Json.object.sizeOf_spec, Json.array.sizeOf_spec]
      at smaller
    omega

/-- Writes a list as the map of its elements by identity, and their order. -/
def writeKeyedListChanges (map : crates.loro.ContainerId)
    (identity : String) (previous next : List Json) :
    Writing crates Unit := do
  mapInsert map keyedListMarker (.string identity)
  let items ← ensureStructuredChild .map map keyedListItems
  let previousByIdentity := listByIdentity previous identity
  let nextByIdentity := listByIdentity next identity
  deleteMissing items previousByIdentity nextByIdentity
  nextByIdentity.attach.forM fun ⟨(key, value), _held⟩ => do
    let child ← ensureStructuredChild .map items key
    let previousValues := membersOf (previousByIdentity.get? key)
    match _shape : value with
    | .object nextValues =>
        writeStructuredDocumentChanges child previousValues nextValues
    | _ => Writing.ofResult (invalidField key "an object")
  let order ← ExceptT.mk fun doc =>
    match crates.loro.ensureMergeable doc .list map keyedListOrder with
    | .ok (child, written) => (.ok child, written)
    | .error message => (.error (.update message), doc)
  writeStringList order
    (next.filterMap fun value => (value.get? identity).bind Json.asStr)
termination_by sizeOf next
decreasing_by
  have smaller := List.sizeOf_lt_of_mem (mem_listByIdentity _held)
  simp only [_shape, Json.object.sizeOf_spec] at smaller
  omega

end

/-! ## Reading -/

mutual

def loroToJson : LoroValue → Json
  | .null => .null
  | .bool value => .bool value
  | .i64 value => .number (.integer value)
  | .double value => .number (.double value)
  | .string value => .string value
  | .list items => .array (loroToJsonItems items)
  | .map members => .object (loroToJsonMembers members)

def loroToJsonItems : List LoroValue → List Json
  | [] => []
  | item :: rest => loroToJson item :: loroToJsonItems rest

/-- The members of a map value, in the order of their names. -/
def loroToJsonMembers : List (String × LoroValue) → Members
  | [] => []
  | (key, value) :: rest =>
      Members.insert (loroToJsonMembers rest) key (loroToJson value)

end

/-- `container.get_deep_value().to_json_value()`. -/
def deepJson (doc : crates.loro.LoroDoc)
    (container : crates.loro.ContainerId) : Json :=
  loroToJson (crates.loro.deepValue doc container)

/-- The value under a map's key with that of every container under it. -/
def deepMember (doc : crates.loro.LoroDoc)
    (map : crates.loro.ContainerId) (key : String) : Option Json :=
  (crates.loro.mapGet doc map key).map fun held =>
    match held with
    | .inl value => loroToJson value
    | .inr (_, container) => deepJson doc container

/-- The strings a list names, in order. -/
def orderStrings (doc : crates.loro.LoroDoc)
    (list : crates.loro.ContainerId) : List String :=
  ((deepJson doc list).asArray.getD []).filterMap Json.asStr

/-- A list without the later occurrences of what it repeats. -/
def firstOccurrences : List String → List String → List String
  | _, [] => []
  | seen, key :: rest =>
      if seen.contains key then firstOccurrences seen rest
      else key :: firstOccurrences (key :: seen) rest

mutual

/-- Rebuilds one structured document level from its containers. -/
def readStructuredDocument (doc : crates.loro.LoroDoc) :
    Nat → crates.loro.ContainerId → ReplicaResult Json
  | 0, _ => .ok (.object [])
  | depth + 1, map => do
      let members ← (crates.loro.mapKeys doc map).foldlM
        (fun (members : Members) key =>
          match crates.loro.mapGet doc map key with
          | none => .ok members
          | some (.inl value) => .ok (members.insert key (loroToJson value))
          | some (.inr (.text, text)) =>
              .ok (members.insert key
                (.string (crates.loro.textString doc text)))
          | some (.inr (.map, child)) => do
              let value ←
                if (crates.loro.mapGet doc child keyedListMarker).isSome then
                  readKeyedList doc depth child
                else
                  readStructuredDocument doc depth child
              .ok (members.insert key value)
          | some (.inr (.list, list)) =>
              .ok (members.insert key (deepJson doc list))
          | some (.inr (.movableList, list)) =>
              .ok (members.insert key (deepJson doc list))
          | some (.inr (.other, _)) => .ok (members.insert key .null))
        []
      .ok (.object members)

/-- Rebuilds an identity-keyed list: those its order names, then the rest. -/
def readKeyedList (doc : crates.loro.LoroDoc) :
    Nat → crates.loro.ContainerId → ReplicaResult Json
  | 0, _ => .ok (.array [])
  | depth + 1, map => do
      let identity ←
        expectField keyedListMarker "a stored identity key"
          ((deepMember doc map keyedListMarker).bind Json.asStr)
      match crates.loro.mapGet doc map keyedListItems with
      | some (.inr (.map, items)) =>
          let order :=
            match crates.loro.mapGet doc map keyedListOrder with
            | some (.inr (.list, order)) => orderStrings doc order
            | _ => []
          let itemKeys := (crates.loro.mapKeys doc items).mergeSort
            fun left right => decide (left ≤ right)
          let ordered ← (firstOccurrences [] (order ++ itemKeys)).filterMapM
            fun key =>
              match crates.loro.mapGet doc items key with
              | some (.inr (.map, child)) => do
                  let value ← readStructuredDocument doc depth child
                  .ok (some
                    (match value with
                    | .object members =>
                        .object (Members.insert members identity (.string key))
                    | other => other))
              | _ => .ok none
          .ok (.array ordered)
      | _ => .ok (.array [])

end

end Structured

end Clerkenwell.Doc
