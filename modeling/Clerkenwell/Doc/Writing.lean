import Clerkenwell.Doc.Validation

/-!
# Writing a document as the changes between two

`write_document_changes` writes a document into its containers field by field.
A write that fails part of the way keeps what it wrote before, so a writer
answers with the document it leaves whether it succeeds or not.
-/

namespace Clerkenwell.Doc

open Clerkenwell.Foundation

section Writing

variable (crates : Crates)

/-- A change of a document, which a failure leaves as far as it got. -/
abbrev Writing (α : Type) :=
  ExceptT CollaborationReplicaError (StateM crates.loro.LoroDoc) α

variable {crates}

/-- A result that does not look at the document. -/
def Writing.ofResult {α : Type} (result : ReplicaResult α) :
    Writing crates α :=
  ExceptT.mk (pure result)

/-- What `read` finds in the document. -/
def Writing.reading {α : Type} (read : crates.loro.LoroDoc → α) :
    Writing crates α :=
  ExceptT.mk fun doc => (.ok (read doc), doc)

/-- An operation on the document; one that fails leaves it as it was. -/
def Writing.operate
    (operation : crates.loro.LoroDoc → Except String crates.loro.LoroDoc) :
    Writing crates Unit :=
  ExceptT.mk fun doc =>
    match operation doc with
    | .ok written => (.ok (), written)
    | .error message => (.error (.update message), doc)

variable (crates)

/-- The map that marks the structured maps that are present. -/
def structuredMapPresence : crates.loro.ContainerId :=
  crates.loro.root .map "collaboration.structured_map_presence"

/-- The map that marks the keyed sequences that are present. -/
def keyedSequencePresence : crates.loro.ContainerId :=
  crates.loro.root .map "collaboration.keyed_sequence_presence"

variable {crates}

def mapInsert (container : crates.loro.ContainerId) (key : String)
    (value : LoroValue) : Writing crates Unit :=
  Writing.operate fun doc => crates.loro.mapInsert doc container key value

def mapDelete (container : crates.loro.ContainerId) (key : String) :
    Writing crates Unit :=
  Writing.operate fun doc => crates.loro.mapDelete doc container key

/-! ## Values -/

mutual

def jsonToLoro : Json → LoroValue
  | .null => .null
  | .bool value => .bool value
  | .number value =>
      match (Json.number value).asI64 with
      | some integer => .i64 integer
      | none => .double value.asF64
  | .string value => .string value
  | .array items => .list (jsonToLoroItems items)
  | .object members => .map (jsonToLoroMembers members)

def jsonToLoroItems : List Json → List LoroValue
  | [] => []
  | item :: rest => jsonToLoro item :: jsonToLoroItems rest

def jsonToLoroMembers : List (String × Json) → List (String × LoroValue)
  | [] => []
  | (key, value) :: rest => (key, jsonToLoro value) :: jsonToLoroMembers rest

end

/-! ## Text and lists -/

/-- Rewrites `text` to `value` as the character edits between them. -/
def writeText (text : crates.loro.ContainerId) (path value : String) :
    Writing crates Unit :=
  ExceptT.mk fun doc =>
    match crates.loro.textUpdate doc text value with
    | some written => (.ok (), written)
    | none =>
        (invalidField path "a text update within the time budget", doc)

/-- Inserts values into a list one after another. -/
def insertValues (list : crates.loro.ContainerId) :
    Nat → List LoroValue → Writing crates Nat
  | position, [] => pure position
  | position, value :: rest => do
      Writing.operate fun doc => crates.loro.listInsert doc list position value
      insertValues list (position + 1) rest

/-- Applies an edit script to a list from `position` on. -/
def applyEdits (list : crates.loro.ContainerId) (desired : List LoroValue) :
    Nat → List DiffOp → Writing crates Unit
  | _, [] => pure ()
  | position, .equal length :: rest =>
      applyEdits list desired (position + length) rest
  | position, edit :: rest => do
      let (deleted, newIndex, inserted) :=
        match edit with
        | .equal _ => (0, 0, 0)
        | .delete oldLength => (oldLength, 0, 0)
        | .insert newIndex newLength => (0, newIndex, newLength)
        | .replace oldLength newIndex newLength =>
            (oldLength, newIndex, newLength)
      if 0 < deleted then
        Writing.operate fun doc =>
          crates.loro.listDelete doc list position deleted
      let position ←
        insertValues list position ((desired.drop newIndex).take inserted)
      applyEdits list desired position rest

/-- The values a list holds. -/
def listValues (doc : crates.loro.LoroDoc) (list : crates.loro.ContainerId) :
    List LoroValue :=
  match crates.loro.deepValue doc list with
  | .list values => values
  | _ => []

/-- Rewrites `list` to `desired` as an edit script between them. -/
def writeList (list : crates.loro.ContainerId) (desired : List LoroValue) :
    Writing crates Unit := do
  let current ← Writing.reading fun doc => listValues doc list
  applyEdits list desired 0 (crates.diff current desired)

def writeStringList (list : crates.loro.ContainerId)
    (values : List String) : Writing crates Unit :=
  writeList list (values.map LoroValue.string)

end Writing

end Clerkenwell.Doc
