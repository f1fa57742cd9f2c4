import Clerkenwell.Client.KeyedFolds
import Mathlib.Data.List.Forall2

/-!
# Sequenced text as streams

The items of a sequenced text are read apart: each holds a text and the number
of the last delta appended to it.  Under the patches of its projection an
item's text grows by the deltas of its identity, in their order, whose numbers
follow one another.
-/

namespace Clerkenwell.Client

open Clerkenwell.Codegen
open Clerkenwell.Foundation

/-! ## Parsed values -/

mutual

/-- A value of which every object names a member once, as parsing makes it. -/
def Parsed : Json → Prop
  | .array items => ParsedItems items
  | .object members => (Members.keys members).Nodup ∧ ParsedMembers members
  | _ => True

def ParsedItems : List Json → Prop
  | [] => True
  | item :: rest => Parsed item ∧ ParsedItems rest

def ParsedMembers : List (String × Json) → Prop
  | [] => True
  | (_, value) :: rest => Parsed value ∧ ParsedMembers rest

end

theorem parsedItems_iff (items : List Json) :
    ParsedItems items ↔ ∀ item ∈ items, Parsed item := by
  induction items with
  | nil => simp [ParsedItems]
  | cons item rest inductionHypothesis =>
      rw [ParsedItems, inductionHypothesis, List.forall_mem_cons]

theorem parsedMembers_iff (members : List (String × Json)) :
    ParsedMembers members ↔ ∀ member ∈ members, Parsed member.2 := by
  induction members with
  | nil => simp [ParsedMembers]
  | cons member rest inductionHypothesis =>
      obtain ⟨name, value⟩ := member
      rw [ParsedMembers, inductionHypothesis, List.forall_mem_cons]

theorem parsed_object_iff (members : Members) :
    Parsed (.object members)
      ↔ members.keys.Nodup
        ∧ ∀ name value, members.get? name = some value → Parsed value := by
  rw [Parsed, parsedMembers_iff]
  refine and_congr_right fun nodup => ⟨fun each name value held => ?_, ?_⟩
  · exact each (name, value) (Members.mem_of_get? held)
  · rintro each ⟨name, value⟩ within
    exact each name value ((Members.get?_eq_some_iff nodup _ _).mpr within)

theorem parsed_insert {members : Members} (parsed : Parsed (.object members))
    (field : String) {value : Json} (other : Parsed value) :
    Parsed (.object (members.insert field value)) := by
  rw [parsed_object_iff] at parsed ⊢
  refine ⟨Members.nodup_insert parsed.1 _ _, ?_⟩
  intro name held read
  rw [Members.get?_insert parsed.1] at read
  split_ifs at read
  · exact Option.some.inj read ▸ other
  · exact parsed.2 name held read

theorem parsed_spread {members other : Members}
    (parsed : Parsed (.object members)) (added : Parsed (.object other)) :
    Parsed (.object (members.spread other)) := by
  obtain ⟨nodup, each⟩ := added
  rw [parsedMembers_iff] at each
  clear nodup
  induction other generalizing members with
  | nil => exact parsed
  | cons member rest inductionHypothesis =>
      rw [List.forall_mem_cons] at each
      exact inductionHypothesis (parsed_insert parsed member.1 each.1) each.2

theorem parsed_empty : Parsed (.object []) :=
  ⟨List.nodup_nil, trivial⟩

theorem parsed_ofMembers {members : Members}
    (parsed : Parsed (.object members)) :
    Parsed (.object (Members.ofMembers members)) :=
  parsed_spread parsed_empty parsed

/-- A property of a parsed record that is a value is parsed. -/
theorem parsed_of_property {members : Members}
    (parsed : Parsed (.object members)) {field : String} {value : Json}
    (held : property members field = .value value) : Parsed value := by
  unfold property at held
  split at held
  · rename_i found
    rw [parsed_object_iff] at parsed
    exact parsed.2 field value (Property.value.inj held ▸ found)
  · split_ifs at held

/-- A record read from a parsed one is parsed. -/
theorem parsed_of_requireRecord {members record : Members}
    (parsed : Parsed (.object members)) {context field : String}
    (required : requireRecord context (property members field) = .ok record) :
    Parsed (.object record) := by
  cases held : property members field with
  | value value =>
      rw [held] at required
      cases value with
      | object own =>
          obtain rfl := Except.ok.inj required
          exact parsed_of_property parsed held
      | _ => cases required
  | prototype =>
      rw [held] at required
      obtain rfl := Except.ok.inj required
      exact parsed_empty
  | _ =>
      rw [held] at required
      cases required

/-- The entries of a parsed snapshot's collection are parsed. -/
theorem parsed_of_mem_collectionIn {collectionField : String}
    {snapshot : Json} (parsed : Parsed snapshot) {item : Json}
    (within : item ∈ collectionIn collectionField snapshot) :
    Parsed item := by
  unfold collectionIn at within
  split at within
  · rename_i members
    split at within
    · rename_i items held
      have there : Parsed (.array items) := parsed_of_property parsed held
      exact (parsedItems_iff items).mp there item within
    · cases within
  · cases within

/-- What is left of a parsed record without some of its fields. -/
theorem parsed_omitFields {record : Members} (parsed : Parsed (.object record))
    (fields : List String) :
    Parsed (.object (omitFields record fields)) := by
  have nodup : Members.keys (record.filter fun member =>
      member.1 ∉ fields) |>.Nodup :=
    parsed.1.sublist (List.filter_sublist.map Prod.fst)
  refine ⟨(Members.ordered_ofMembers _).nodup, ?_⟩
  rw [parsedMembers_iff]
  intro member within
  have kept := (Members.ofMembers_perm nodup).mem_iff.mp within
  exact (parsedMembers_iff record).mp parsed.2 member
    (List.mem_filter.mp kept).1

/-! ## Outputs -/

section Streams

variable (snapshotOutputField sequenceField textField : String)

/-- The number and the text an item's output holds; 0 and none before any. -/
def outputOf (members : Members) : Option (Dyadic × String) :=
  match property members snapshotOutputField with
  | .undefined => some (0, "")
  | .value (.object output) =>
      match property output sequenceField, property output textField with
      | .value (.number sequence), .value (.string text) =>
          some (sequence, text)
      | _, _ => none
  | _ => none

/-- An output as a delta leaves it. -/
def outputRecord (sequence : Dyadic) (text : String) : Json :=
  .object ((Members.insert [] sequenceField (.number sequence)).insert
    textField (.string text))

variable {snapshotOutputField sequenceField textField}

theorem outputOf_outputRecord {members : Members} {sequence : Dyadic}
    {text : String}
    (held : property members snapshotOutputField
      = .value (outputRecord sequenceField textField sequence text)) :
    outputOf snapshotOutputField sequenceField textField members
      = if sequenceField = textField then none else some (sequence, text) := by
  have textRead : property ((Members.insert [] sequenceField
      (.number sequence)).insert textField (.string text)) textField
        = .value (.string text) :=
    property_of_get? (by rw [get?_pair, if_pos rfl])
  unfold outputOf
  rw [held, outputRecord]
  simp only [textRead]
  split_ifs with same
  · rw [same, show property ((Members.insert [] textField
      (.number sequence)).insert textField (.string text)) textField
        = .value (.string text) from same ▸ textRead]
  · rw [property_of_get? (by rw [get?_pair, if_neg same, if_pos rfl])]

theorem requireString_ok {context : String} {read : Property} {text : String}
    (required : requireString context read = .ok text) :
    read = .value (.string text) := by
  cases read with
  | value value =>
      cases value with
      | string held => rw [Except.ok.inj required]
      | _ => cases required
  | _ => cases required

theorem requireInteger_ok {context : String} {read : Property}
    {value : Dyadic} (required : requireInteger context read = .ok value) :
    read = .value (.number value) := by
  cases read with
  | value held =>
      cases held with
      | number number =>
          simp only [requireInteger] at required
          split at required
          · rw [Except.ok.inj required]
          · cases required
      | _ => cases required
  | _ => cases required

/-- No member of a record without members is an integer. -/
theorem requireInteger_empty {context field : String} {value : Dyadic} :
    requireInteger context (property [] field) ≠ .ok value := by
  intro required
  have read := requireInteger_ok required
  simp only [property, Members.get?, List.lookup_nil] at read
  split_ifs at read

variable {spell : Property → String}

/-- A delta appended follows the output it is appended to. -/
theorem appendOutput_ok {sequence : Dyadic} {textDelta : String}
    {identity : Property} {members : Members} {result : Json}
    (appended : appendOutput spell snapshotOutputField sequenceField textField
      sequence textDelta identity members = .ok result) :
    ∃ current text,
      outputOf snapshotOutputField sequenceField textField members
          = some (current, text)
        ∧ sequence = current + 1
        ∧ result = .object (withField members snapshotOutputField
            (outputRecord sequenceField textField sequence
              (text ++ textDelta))) := by
  unfold appendOutput at appended
  unfold outputOf
  cases field : property members snapshotOutputField with
  | undefined =>
      simp only [field, Property.isUndefined, if_true, pure, Except.pure, bind,
        Except.bind] at appended
      split at appended
      · cases appended
      · rename_i follows
        exact ⟨0, "", rfl, not_not.mp follows,
          (Except.ok.inj appended).symm⟩
  | method name =>
      simp [field, Property.isUndefined, requireRecord, bind,
        Except.bind] at appended
  | prototype =>
      simp only [field, Property.isUndefined, Bool.false_eq_true, if_false,
        requireRecord, pure, Except.pure, bind, Except.bind] at appended
      split at appended
      · cases appended
      · rename_i number
        exact absurd number requireInteger_empty
  | value value =>
      cases value with
      | object output =>
          simp only [field, Property.isUndefined, Bool.false_eq_true, if_false,
            requireRecord, pure, Except.pure, bind, Except.bind] at appended
          split at appended
          · cases appended
          · rename_i current number
            split at appended
            · cases appended
            · rename_i follows
              split at appended
              · cases appended
              · rename_i text isText
                refine ⟨current, text, ?_, not_not.mp follows,
                  (Except.ok.inj appended).symm⟩
                simp only [requireInteger_ok number, requireString_ok isText]
      | _ =>
          simp [field, Property.isUndefined, requireRecord, bind,
            Except.bind] at appended

/-! ## Streams of deltas -/

/-- What an output patch appends, and to whose text. -/
structure OutputDelta where
  identity : Property
  sequence : Dyadic
  text : String

variable (itemIdentityField : String)

/-- The deltas of an item's identity, in order. -/
def deltasOf (deltas : List OutputDelta) (item : Json) : List OutputDelta :=
  deltas.filter fun delta => !isOther itemIdentityField delta.identity item

/-- The number a count of steps after another. -/
def numberAfter (first : Dyadic) : Nat → Dyadic
  | 0 => first
  | count + 1 => numberAfter first count + 1

/-- The numbers that follow one, each one more than the one before. -/
def following (first : Dyadic) : Nat → List Dyadic
  | 0 => []
  | count + 1 => following first count ++ [numberAfter first (count + 1)]

variable (snapshotOutputField sequenceField textField)

/--
An item after some deltas: without one of its identity it is as it was.  Else
its text is the text it had and those of its deltas, one after another; their
numbers follow the number it had; and its other members are as they were.
-/
def ItemStreams (deltas : List OutputDelta) (item after : Json) : Prop :=
  let own := deltasOf itemIdentityField deltas item
  (own = [] → after = item)
    ∧ (own ≠ [] → ∃ members written first text,
      item = .object members
        ∧ after = .object written
        ∧ (Members.keys written).Nodup
        ∧ outputOf snapshotOutputField sequenceField textField members
          = some (first, text)
        ∧ own.map OutputDelta.sequence = following first own.length
        ∧ property written snapshotOutputField
          = .value (outputRecord sequenceField textField
              (numberAfter first own.length)
              (text ++ String.join (own.map OutputDelta.text)))
        ∧ ∀ field ≠ snapshotOutputField,
          property written field = property members field)

variable {snapshotOutputField sequenceField textField itemIdentityField}

theorem itemStreams_nil (item : Json) :
    ItemStreams snapshotOutputField sequenceField textField itemIdentityField
      [] item item :=
  ⟨fun _ => rfl, fun some_ => absurd rfl some_⟩

theorem deltasOf_append (deltas : List OutputDelta) (delta : OutputDelta)
    (item : Json) :
    deltasOf itemIdentityField (deltas ++ [delta]) item
      = deltasOf itemIdentityField deltas item
        ++ if isOther itemIdentityField delta.identity item then []
          else [delta] := by
  unfold deltasOf
  rw [List.filter_append, List.filter_singleton]
  cases isOther itemIdentityField delta.identity item <;> rfl

/-- An output is held by a record, or not yet. -/
theorem field_of_outputOf {members : Members} {output : Dyadic × String}
    (held : outputOf snapshotOutputField sequenceField textField members
      = some output) :
    property members snapshotOutputField = .undefined
      ∨ ∃ record,
        property members snapshotOutputField = .value (.object record) := by
  unfold outputOf at held
  split at held
  · rename_i undefined
    exact .inl undefined
  · rename_i record there
    exact .inr ⟨record, there⟩
  · cases held

/-- An item a delta was appended to has its identity in a field of its own. -/
theorem identity_apart {members : Members} {identity : Property}
    (own : isOther itemIdentityField identity (.object members) = false)
    (known : identity.isUndefined = false)
    (field : property members snapshotOutputField = .undefined
      ∨ ∃ output,
        property members snapshotOutputField = .value (.object output)) :
    itemIdentityField ≠ snapshotOutputField := by
  rintro rfl
  simp only [isOther, Bool.not_eq_false'] at own
  rcases field with undefined | ⟨output, held⟩
  · rw [undefined] at own
    cases identity with
    | undefined => cases known
    | _ => cases own
  · rw [held] at own
    cases identity <;> cases own

/-- An item is alike to the identities it was alike to before its deltas. -/
theorem ItemStreams.isOther_eq {deltas : List OutputDelta} {item after : Json}
    (streams : ItemStreams snapshotOutputField sequenceField textField
      itemIdentityField deltas item after)
    (known : ∀ delta ∈ deltas, delta.identity.isUndefined = false)
    (identity : Property) :
    isOther itemIdentityField identity after
      = isOther itemIdentityField identity item := by
  by_cases none : deltasOf itemIdentityField deltas item = []
  · rw [streams.1 none]
  · obtain ⟨delta, within⟩ := List.exists_mem_of_ne_nil _ none
    obtain ⟨there, own⟩ := List.mem_filter.mp within
    obtain ⟨members, written, first, text, rfl, rfl, -, start, -, -, others⟩ :=
      streams.2 none
    have apart : itemIdentityField ≠ snapshotOutputField :=
      identity_apart (by simpa using own) (known delta there)
        (field_of_outputOf start)
    simp only [isOther, others itemIdentityField apart]

/-- An item another identity's delta passes by streams on as it was. -/
theorem ItemStreams.pass {deltas : List OutputDelta} {item after : Json}
    (streams : ItemStreams snapshotOutputField sequenceField textField
      itemIdentityField deltas item after)
    {delta : OutputDelta}
    (other : isOther itemIdentityField delta.identity item = true) :
    ItemStreams snapshotOutputField sequenceField textField itemIdentityField
      (deltas ++ [delta]) item after := by
  unfold ItemStreams
  rw [deltasOf_append, other, if_pos rfl, List.append_nil]
  exact streams

theorem property_withField_of_ne {record : Members}
    (nodup : record.keys.Nodup) {field other : String} (apart : other ≠ field)
    (value : Json) :
    property (withField record field value) other = property record other := by
  have read : (withField record field value).get? other
      = record.get? other := by
    rw [withField,
      Members.get?_insert (Members.ordered_ofMembers record).nodup,
      if_neg apart, Members.get?_ofMembers nodup]
  rw [property, property, read]

/-- An item a delta is appended to streams on with it. -/
theorem ItemStreams.append {spell : Property → String}
    {deltas : List OutputDelta} {item : Json} {candidate : Members}
    (streams : ItemStreams snapshotOutputField sequenceField textField
      itemIdentityField deltas item (.object candidate))
    (known : ∀ delta ∈ deltas, delta.identity.isUndefined = false)
    (parsed : Parsed item) {delta : OutputDelta}
    (own : isOther itemIdentityField delta.identity (.object candidate)
      = false)
    {result : Json}
    (appended : appendOutput spell snapshotOutputField sequenceField textField
      delta.sequence delta.text delta.identity candidate = .ok result) :
    ItemStreams snapshotOutputField sequenceField textField itemIdentityField
      (deltas ++ [delta]) item result := by
  obtain ⟨current, text, output, follows, rfl⟩ := appendOutput_ok appended
  have alike : isOther itemIdentityField delta.identity item = false := by
    rw [← streams.isOther_eq known]
    exact own
  have grown : deltasOf itemIdentityField (deltas ++ [delta]) item
      = deltasOf itemIdentityField deltas item ++ [delta] := by
    rw [deltasOf_append, alike, if_neg Bool.false_ne_true]
  unfold ItemStreams
  rw [grown]
  refine ⟨fun none => by simp at none, fun _ => ?_⟩
  by_cases none : deltasOf itemIdentityField deltas item = []
  · obtain rfl := streams.1 none
    refine ⟨candidate, _, current, text, rfl, rfl,
      ((Members.ordered_ofMembers candidate).insert _ _).nodup, output, ?_, ?_,
      fun other different =>
        property_withField_of_ne parsed.1 different _⟩
    · rw [none, List.nil_append, List.map_singleton, follows]
      rfl
    · rw [property_withField, none, List.nil_append, List.map_singleton,
        follows]
      simp [numberAfter]
  · obtain ⟨members, written, first, before_, rfl, same, nodup, start, numbers,
      held, others⟩ := streams.2 none
    obtain rfl := Json.object.inj same
    rw [outputOf_outputRecord held] at output
    split_ifs at output
    obtain ⟨rfl, rfl⟩ := Prod.mk.inj (Option.some.inj output)
    refine ⟨members, _, first, before_, rfl, rfl,
      ((Members.ordered_ofMembers candidate).insert _ _).nodup, start, ?_, ?_,
      fun other different => ?_⟩
    · rw [List.map_append, numbers, List.length_append, List.length_singleton,
        List.map_singleton, follows]
      rfl
    · rw [property_withField, follows, List.length_append,
        List.length_singleton, List.map_append, List.map_singleton,
        String.join_append, String.append_assoc]
      rfl
    · rw [property_withField_of_ne nodup different, others other different]

end Streams

/-! ## Patches of a sequenced text -/

section Patches

variable (snapshotOutputField sequenceField textField itemIdentityField
  collectionField patchIdentityField patchOutputField deltaTextField : String)

/-- The delta an output patch carries. -/
def outputDelta (patch : Json) : Option OutputDelta :=
  match patch with
  | .object members =>
      match requireRecord "" (property members patchOutputField) with
      | .ok delta =>
          match property delta sequenceField, property delta deltaTextField with
          | .value (.number sequence), .value (.string text) =>
              some
                { identity := property members patchIdentityField
                  sequence := sequence
                  text := text }
          | _, _ => none
      | .error _ => none
  | _ => none

/-- A snapshot after the deltas since another. -/
def Streamed (base : Json) (deltas : List OutputDelta) (snapshot : Json) :
    Prop :=
  (deltas = [] → snapshot = base)
    ∧ (∀ delta ∈ deltas, delta.identity.isUndefined = false)
    ∧ List.Forall₂
      (ItemStreams snapshotOutputField sequenceField textField
        itemIdentityField deltas)
      (collectionIn collectionField base)
      (collectionIn collectionField snapshot)

variable {snapshotOutputField sequenceField textField itemIdentityField
  collectionField patchIdentityField patchOutputField deltaTextField}

theorem streamed_base (base : Json) :
    Streamed snapshotOutputField sequenceField textField itemIdentityField
      collectionField base [] base :=
  ⟨fun _ => rfl, (fun _ within => by cases within),
    List.forall₂_same.mpr fun item _ => itemStreams_nil item⟩

variable {spell : Property → String} {snapshot result base : Json}
variable {patch : Members} {kind : String} {deltas : List OutputDelta}

/-- What a delta makes of each item: it is appended, or passes the item by. -/
def appendDelta (spell : Property → String)
    (snapshotOutputField sequenceField textField itemIdentityField : String)
    (delta : OutputDelta) (candidate : Json) : Except String Json :=
  match candidate with
  | .object members =>
      if isOther itemIdentityField delta.identity candidate then pure candidate
      else
        appendOutput spell snapshotOutputField sequenceField textField
          delta.sequence delta.text delta.identity members
  | other => pure other

theorem ItemStreams.appendDelta {item after next : Json} {delta : OutputDelta}
    (known : ∀ delta ∈ deltas, delta.identity.isUndefined = false)
    (parsed : Parsed item)
    (streams : ItemStreams snapshotOutputField sequenceField textField
      itemIdentityField deltas item after)
    (appended : Client.appendDelta spell snapshotOutputField sequenceField
      textField itemIdentityField delta after = .ok next) :
    ItemStreams snapshotOutputField sequenceField textField itemIdentityField
      (deltas ++ [delta]) item next := by
  unfold Client.appendDelta at appended
  split at appended
  · rename_i members
    split at appended
    · rename_i other
      obtain rfl := Except.ok.inj appended
      rw [streams.isOther_eq known] at other
      exact streams.pass other
    · rename_i own
      exact streams.append known parsed (Bool.eq_false_iff.mpr own) appended
  · rename_i noRecord
    obtain rfl := Except.ok.inj appended
    have other : isOther itemIdentityField delta.identity after = true := by
      cases after with
      | object members => exact absurd rfl (noRecord members)
      | _ => rfl
    rw [streams.isOther_eq known] at other
    exact streams.pass other

/-- A patch a sequenced text takes starts it anew, or is a delta of its items. -/
theorem materializeSequencedText_ok
    (materialized : materializeSequencedText spell snapshot patch kind
      collectionField itemIdentityField patchIdentityField snapshotOutputField
      sequenceField textField patchOutputField deltaTextField = .ok result) :
    (kind = "reset" ∧ result = .object (omitFields patch ["kind"]))
      ∨ (kind = "output" ∧ ∃ delta,
        outputDelta sequenceField patchIdentityField patchOutputField
            deltaTextField (.object patch) = some delta
          ∧ delta.identity.isUndefined = false
          ∧ List.Forall₂
            (fun candidate next =>
              appendDelta spell snapshotOutputField sequenceField textField
                itemIdentityField delta candidate = .ok next)
            (collectionIn collectionField snapshot)
            (collectionIn collectionField result)) := by
  unfold materializeSequencedText at materialized
  split at materialized
  · rename_i reset
    exact .inl ⟨reset, (Except.ok.inj materialized).symm⟩
  split at materialized
  · cases materialized
  rename_i output
  refine .inr ⟨not_not.mp output, ?_⟩
  obtain ⟨current, isRecord, materialized⟩ := except_bind_ok materialized
  obtain ⟨collection, isArray, materialized⟩ := except_bind_ok materialized
  dsimp only at materialized
  split at materialized
  · cases materialized
  rename_i known
  obtain ⟨delta, isDelta, materialized⟩ := except_bind_ok materialized
  obtain ⟨sequence, isInteger, materialized⟩ := except_bind_ok materialized
  obtain ⟨text, isText, materialized⟩ := except_bind_ok materialized
  obtain ⟨next, appended, materialized⟩ := except_bind_ok materialized
  split at materialized
  · cases materialized
  obtain rfl := Except.ok.inj materialized
  refine ⟨{ identity := property patch patchIdentityField
            sequence := sequence
            text := text }, ?_, by simpa using known, ?_⟩
  · simp only [outputDelta, requireRecord_context isDelta,
      requireInteger_ok isInteger, requireString_ok isText]
  · have held : collectionIn collectionField snapshot = collection := by
      cases snapshot with
      | object members =>
          obtain rfl := Except.ok.inj isRecord
          simp only [collectionIn, requireArray_ok isArray]
      | _ => cases isRecord
    rw [held, collectionIn_withField]
    exact forall₂_of_mapM_ok appended

/-- A sequenced text streams on with a delta its items take. -/
theorem Streamed.append {delta : OutputDelta}
    (streamed : Streamed snapshotOutputField sequenceField textField
      itemIdentityField collectionField base deltas snapshot)
    (parsed : Parsed base) (known : delta.identity.isUndefined = false)
    (appended : List.Forall₂
      (fun candidate next =>
        appendDelta spell snapshotOutputField sequenceField textField
          itemIdentityField delta candidate = .ok next)
      (collectionIn collectionField snapshot)
      (collectionIn collectionField result)) :
    Streamed snapshotOutputField sequenceField textField itemIdentityField
      collectionField base (deltas ++ [delta]) result := by
  obtain ⟨-, allKnown, items⟩ := streamed
  refine ⟨fun none => by simp at none, ?_, ?_⟩
  · intro other within
    rcases List.mem_append.mp within with earlier | last
    · exact allKnown other earlier
    · rw [List.mem_singleton.mp last]
      exact known
  · have step : ∀ item ∈ collectionIn collectionField base, ∀ after next,
        ItemStreams snapshotOutputField sequenceField textField
          itemIdentityField deltas item after →
        appendDelta spell snapshotOutputField sequenceField textField
          itemIdentityField delta after = .ok next →
        ItemStreams snapshotOutputField sequenceField textField
          itemIdentityField (deltas ++ [delta]) item next :=
      fun item within after next streams taken =>
        streams.appendDelta allKnown (parsed_of_mem_collectionIn parsed within)
          taken
    clear parsed
    generalize collectionIn collectionField base = start at items step
    generalize collectionIn collectionField snapshot = held at items appended
    generalize collectionIn collectionField result = left at appended
    induction items generalizing left with
    | nil =>
        cases appended
        exact .nil
    | cons streams rest inductionHypothesis =>
        cases appended with
        | cons taken others =>
            rw [List.forall_mem_cons] at step
            exact .cons (step.1 _ _ streams taken)
              (inductionHypothesis step.2 _ others)

end Patches

end Clerkenwell.Client
