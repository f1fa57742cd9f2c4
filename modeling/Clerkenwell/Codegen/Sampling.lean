import Clerkenwell.Codegen.Schema
import Clerkenwell.Foundation.Running

/-!
# Sampling a schema

A sample is of the required members only, the first enum value, the first
union member and the first tagged variant.  Sampling follows references, so it
may go on for ever: it is run with as many nested calls as `fuel` allows, and
has no outcome where they run out.
-/

namespace Clerkenwell.Codegen

open Clerkenwell.Foundation

/-! ## Numbers -/

def Dyadic.floor (value : Dyadic) : Dyadic :=
  Dyadic.ofInt value.toRat.floor

def Dyadic.ceil (value : Dyadic) : Dyadic :=
  Dyadic.ofInt value.toRat.ceil

/-- Whether a number is one an `i64` holds, once it is an integer. -/
def withinI64 (value : Dyadic) : Bool :=
  Dyadic.ofInt (-2 ^ 63) ≤ value && value < Dyadic.ofInt (2 ^ 63)

/--
1, or the bound nearest it of a schema that excludes 1; an integer schema's
sample is an integer an `i64` holds.
-/
def boundedSample (schema : Members) (integer : Bool) : Checked Dyadic :=
  let raised :=
    match bound schema "minimum" with
    | some minimum =>
        if 1 < minimum then
          if integer then Dyadic.ceil minimum else minimum
        else 1
    | none => 1
  let sample :=
    match bound schema "maximum" with
    | some maximum =>
        if maximum < raised then
          if integer then Dyadic.floor maximum else maximum
        else raised
    | none => raised
  let held :=
    (bound schema "minimum").all (fun limit => limit ≤ sample)
      && (bound schema "maximum").all (fun limit => sample ≤ limit)
  let representable := !integer || withinI64 sample
  if !held || !representable then
    refuse ("Cannot generate a fixture for an integer schema whose bounds "
      ++ "admit no integer an i64 holds.")
  else
    .ok sample

/-! ## Values -/

/-- The most characters a fixture string holds. -/
def fixtureStringLimit : Nat :=
  2 ^ 20

/-- A string sample: a stem, and as many characters as `minLength` asks. -/
def stringSample (schema : Members) (suffix key : Option String) :
    Checked Json :=
  let sample :=
    match suffix, key with
    | none, _ => "fixture"
    | some suffix, some key => s!"{kebabIdentifier key}-{suffix}"
    | some suffix, none => s!"{suffix}-value"
  let minLength := (bound schema "minLength").getD 0
  if Dyadic.ofInt fixtureStringLimit < minLength then
    refuse ("Cannot generate a fixture for a string schema whose minLength "
      ++ s!"exceeds the {fixtureStringLimit} characters a fixture string "
      ++ "holds.")
  else
    let minLength := minLength.toRat.floor.toNat
    .ok (.string
      (sample.pushn 'x' (minLength - sample.length)))

/-- What an open object's sample calls the member it does not declare. -/
def otherMemberName (properties : Members) : Nat → String → String
  | 0, name => name
  | attempts + 1, name =>
      if properties.containsKey name then
        otherMemberName properties attempts (name.push '-')
      else
        name

section Sampling

variable (definition : Sections) (suffix : Option String)

/-- Samples the first member of a union whose constraints leave values of it. -/
def sampleUnion (sample : Members → Running Failure Json) (schema : Members) :
    Option Failure → List String → Running Failure Json
  | refusal, [] => Running.settled (expect refusal >>= .error)
  | _, memberType :: rest =>
      match (sample (schema.insert "type" (.string memberType))).run with
      | some (.error .panicked) => throw .panicked
      | some (.error refusal) => sampleUnion sample schema (some refusal) rest
      | outcome => ExceptT.mk outcome

/-- Samples the required properties of an object, in order. -/
def sampleProperties (sample : Members → String → Running Failure Json)
    (required : List String) (properties : Members) :
    Running Failure Members :=
  properties.foldlM (fun sampled (property, schema) =>
    if required.contains property then do
      let schema ← Running.settled (expect schema.asObject)
      let value ← sample schema property
      pure (sampled.insert property value)
    else
      pure sampled) []

/-- Samples the first variant of a tagged union. -/
def sampleVariant (sample : Members → Running Failure Json)
    (schema variants : Members) : Running Failure Json := do
  let (tag, variant) ← Running.settled (expect variants.head?)
  let discriminator ←
    Running.settled (expect (strField schema "discriminator"))
  let variant ← Running.settled (expect variant.asObject)
  let sampled := Members.insert [] discriminator (.string tag)
  match ← sample variant with
  | .object fields => pure (.object (sampled.spread fields))
  | _ => pure (.object sampled)

/-- Adds to an open object's sample one member it does not declare. -/
def sampleOther (sample : Members → String → Running Failure Json)
    (schema : Members) (extend : Bool) (sampled : Members) :
    Running Failure Json :=
  match extend, objectField schema "properties", otherMembersSchema schema with
  | true, some properties, some additional => do
      let name :=
        otherMemberName properties (properties.length + 1) "other-member"
      let value ←
        if hasType additional "json" then pure (.string "other-value")
        else sample additional name
      pure (.object (sampled.insert name value))
  | _, _, _ => pure (.object sampled)

/--
A sample value of `schema`, giving each open object an undeclared member when
`extend` holds.  The value of such a member is sampled without, so an open
object whose other members are of its own type has a finite sample.
-/
def sampleWithin :
    Nat → Members → Option String → Bool → Running Failure Json
  | 0, _, _, _ => Running.pending
  | fuel + 1, schema, key, extend =>
      if (schema.get? "$ref").isSome then do
        let target ←
          Running.settled (resolveRef definition schema "fixture schema")
        sampleWithin fuel target key extend
      else
      match schema.get? "const" with
      | some constant => pure constant
      | none =>
      match (schema.get? "enum").bind Json.asArray with
      | some values =>
          match values.find? (valueMeetsBounds schema) with
          | some value => pure value
          | none =>
              throw (.refused ("Cannot generate a fixture for an enum none "
                ++ "of whose values meets its bounds."))
      | none => do
      match ← Running.settled (primitiveUnionTypes schema) with
      | some members =>
          sampleUnion (fun member => sampleWithin fuel member key extend)
            schema none members
      | none =>
      match strField schema "type" with
      | some "string" => Running.settled (stringSample schema suffix key)
      | some "integer" =>
          Running.settled ((boundedSample schema true).map Json.number)
      | some "number" =>
          Running.settled ((boundedSample schema false).map Json.number)
      | some "boolean" => pure (.bool true)
      | some "json" => pure .null
      | some "array" =>
          let items ← Running.settled (expect (objectField schema "items"))
          let item ← sampleWithin fuel items none extend
          pure (.array [item])
      | some "object" =>
          match objectField schema "oneOf" with
          | some variants =>
              sampleVariant
                (fun variant => sampleWithin fuel variant key extend)
                schema variants
          | none =>
              let required ← Running.settled
                (readStringArray (schema.get? "required") "fixture required")
              let sampled ← sampleProperties
                (fun property name =>
                  sampleWithin fuel property (some name) extend)
                required ((objectField schema "properties").getD [])
              sampleOther
                (fun other name => sampleWithin fuel other (some name) false)
                schema extend sampled
      | _ => throw (.refusedType (schema.get? "type"))

/-- A sample value of `schema`. -/
def sampleValue (fuel : Nat) (schema : Members) (key : Option String) :
    Running Failure Json :=
  sampleWithin definition suffix fuel schema key true

end Sampling

end Clerkenwell.Codegen
