import Clerkenwell.Codegen.Stringify
import Clerkenwell.Foundation.StableSort

/-!
# The normalised definition

Every named section becomes a list of its entries and every object's keys are
brought into the collator's order, by a stable sort.
-/

namespace Clerkenwell.Codegen

/--
How two strings compare in a locale: a total preorder, which may find two
different strings equal.
-/
structure Collator where
  compare : String → String → Ordering
  oriented : ∀ left right, compare right left = (compare left right).swap
  transitive : ∀ first second third,
    (compare first second).isLE = true → (compare second third).isLE = true →
      (compare first third).isLE = true

/-- Whether a string sorts no later than another. -/
def Collator.sortsBefore (collator : Collator) (left right : String) : Prop :=
  (collator.compare left right).isLE = true

instance (collator : Collator) : DecidableRel collator.sortsBefore :=
  fun left right => inferInstanceAs
    (Decidable ((collator.compare left right).isLE = true))

instance (collator : Collator) : Std.Total collator.sortsBefore where
  total left right := by
    unfold Collator.sortsBefore
    rw [collator.oriented left right]
    cases collator.compare left right <;> simp

instance (collator : Collator) : IsTrans String collator.sortsBefore where
  trans := collator.transitive

/-! ## Fields a section was checked to have -/

def objectField (members : Members) (key : String) : Option Members :=
  (members.get? key).bind Json.asObject

def numberField (members : Members) (key : String) : Option Dyadic :=
  (members.get? key).bind Json.asNumber

def strField (members : Members) (key : String) : Option String :=
  (members.get? key).bind Json.asStr

/-! ## Normalisation -/

section Normalising

variable (collator : Collator)

/-- A section's entries in locale order. -/
def sortedEntries (entries : Members) : Members :=
  entries.insertionSort fun left right => collator.sortsBefore left.1 right.1

/-- `{ [key]: name, ...value }`. -/
def named (key name : String) (value : Json) : Members :=
  let object := Members.insert [] key (.string name)
  match value.asObject with
  | some value => object.spread value
  | none => object

mutual

/--
A value with every object's keys in locale order.  Its children are brought
into order before its own keys are, which compare no values.
-/
def deepSort : Json → Json
  | .array items => .array (deepSortItems items)
  | .object members =>
      .object (Members.ofMembers
        (sortedEntries collator (deepSortMembers members)))
  | other => other

def deepSortItems : List Json → List Json
  | [] => []
  | item :: rest => deepSort item :: deepSortItems rest

def deepSortMembers : List (String × Json) → List (String × Json)
  | [] => []
  | (key, value) :: rest => (key, deepSort value) :: deepSortMembers rest

end

/-- A section as the list of its entries, each with its name under `key`. -/
def namedEntries (key : String) (entries : Members) : Json :=
  .array ((sortedEntries collator entries).map fun (name, value) =>
    deepSort collator (.object (named key name value)))

/-- A collaborative entity, its fields listed by their paths. -/
def normalizedEntity (name : String) (entity : Json) : Option Json := do
  let entity ← entity.asObject
  let fields ← objectField entity "fields"
  let object := named "name" name (.object entity)
  return deepSort collator
    (.object (object.insert "fields" (namedEntries collator "path" fields)))

/--
The canonical document; nothing where it would read a section of a shape the
meta-schema excludes.
-/
def normalizedDocument (document : Members) : Option Json := do
  let collaboration ← objectField document "collaboration"
  let collaborative ← objectField collaboration "entities"
  let collaborationEntities ←
    (sortedEntries collator collaborative).mapM fun (name, entity) =>
      normalizedEntity collator name entity
  let collaborationVersion ← numberField collaboration "version"
  let version ← numberField document "version"
  let namespaceName ← strField document "namespace"
  let entities ← objectField document "entities"
  let projections ← objectField document "projections"
  let mutations ← objectField document "mutations"
  let commands := (objectField document "commands").getD []
  let definitions ← objectField document "$defs"
  return deepSort collator (.object (Members.ofMembers
    [("version", .number version),
      ("namespace", .string namespaceName),
      ("entities", namedEntries collator "name" entities),
      ("projections", namedEntries collator "name" projections),
      ("mutations", namedEntries collator "name" mutations),
      ("commands", namedEntries collator "name" commands),
      ("collaboration", .object (Members.ofMembers
        [("version", .number collaborationVersion),
          ("entities", .array collaborationEntities)])),
      ("definitions", namedEntries collator "name" definitions)]))

/-- The normalised definition file's text: one JSON value and a newline. -/
def renderNormalizedDefinition (scientific : Scientific) (document : Members) :
    Option (List Char) :=
  (normalizedDocument collator document).map fun value =>
    stringifyPretty scientific value ++ ['\n']

end Normalising

end Clerkenwell.Codegen
