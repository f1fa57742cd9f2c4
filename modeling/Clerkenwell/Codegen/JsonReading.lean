import Clerkenwell.Codegen.NumberText
import Clerkenwell.Codegen.Reordering
import Clerkenwell.Foundation.JsonText

/-!
# Reading a text back

`Json::parse` hands `serde_json` a visitor that builds each object by inserting
its members as they come.  The deserializer is not part of the generator: what
it hands a visitor for a text of the JSON grammar is an assumption, and so is
that it gives up 128 containers deep.
-/

namespace Clerkenwell.Codegen

open Clerkenwell.Foundation

/-! ## The visitor -/

/-- What a deserializer hands its visitor. -/
inductive Visit where
  | unit
  | none
  | bool (value : Bool)
  | i64 (value : Int)
  | u64 (value : Nat)
  | f64 (value : Dyadic)
  | str (value : String)
  | string (value : String)
  | seq (items : List Visit)
  | map (entries : List (String × Visit))

section Visiting

variable (nearest : ℚ → Option Dyadic)

/-- `value as f64` of an integer, which is never out of range. -/
def asF64 (value : ℚ) : Dyadic :=
  (nearest value).getD 0

mutual

/-- What `JsonVisitor` makes of what it is handed. -/
def visit : Visit → Json
  | .unit => .null
  | .none => .null
  | .bool value => .bool value
  | .i64 value => .number (asF64 nearest value)
  | .u64 value => .number (asF64 nearest value)
  | .f64 value => .number value
  | .str value => .string value
  | .string value => .string value
  | .seq items => .array (visitSeq items)
  | .map entries => .object (visitMap entries [])

/-- The items of a sequence, one after another. -/
def visitSeq : List Visit → List Json
  | [] => []
  | item :: rest => visit item :: visitSeq rest

/-- The object that each entry of a map is inserted into as it comes. -/
def visitMap : List (String × Visit) → Members → Members
  | [], object => object
  | (key, value) :: rest, object =>
      visitMap rest (object.insert key (visit value))

end

/-! ## The deserializer -/

mutual

/--
What a deserializer may hand a visitor for what a text says: an integer as one
where it fits, any number as the double nearest to it.
-/
inductive Delivers : JsonText → Visit → Prop where
  | null : Delivers .null .unit
  | bool (value : Bool) : Delivers (.bool value) (.bool value)
  | i64 (value : Int) : -2 ^ 63 ≤ value → value < 2 ^ 63 →
      Delivers (.number value) (.i64 value)
  | u64 (value : Nat) : value < 2 ^ 64 →
      Delivers (.number value) (.u64 value)
  | f64 {number : ℚ} {value : Dyadic} : nearest number = some value →
      Delivers (.number number) (.f64 value)
  | str (value : String) : Delivers (.string value) (.str value)
  | seq {items : List JsonText} {visits : List Visit} :
      DeliversItems items visits → Delivers (.array items) (.seq visits)
  | map {members : List (String × JsonText)}
      {entries : List (String × Visit)} :
      DeliversMembers members entries →
        Delivers (.object members) (.map entries)

inductive DeliversItems : List JsonText → List Visit → Prop where
  | nil : DeliversItems [] []
  | cons {item : JsonText} {items : List JsonText} {visited : Visit}
      {visits : List Visit} :
      Delivers item visited → DeliversItems items visits →
        DeliversItems (item :: items) (visited :: visits)

inductive DeliversMembers :
    List (String × JsonText) → List (String × Visit) → Prop where
  | nil : DeliversMembers [] []
  | cons {key : String} {value : JsonText}
      {members : List (String × JsonText)} {visited : Visit}
      {entries : List (String × Visit)} :
      Delivers value visited → DeliversMembers members entries →
        DeliversMembers ((key, value) :: members) ((key, visited) :: entries)

end

/-- The containers that `serde_json` gives up at. -/
def recursionLimit : Nat :=
  128

/--
`serde_json::from_str`, up to the visitor: it hands over what a text of the
grammar says, the members of an object in the order they stand in, unless the
text is nested too deep or holds a number beyond the doubles.
-/
structure SerdeJson where
  from_str : List Char → Option Visit
  delivers : ∀ (text : List Char) (said : JsonText),
    JsonText.read text = some said → said.depth < recursionLimit →
      (∀ number ∈ said.numbers, (nearest number).isSome) →
        ∃ visits, from_str text = some visits ∧ Delivers nearest said visits
  limited : ∀ (text : List Char) (said : JsonText),
    JsonText.read text = some said → recursionLimit ≤ said.depth →
      from_str text = none

/-- `Json::parse`; `none` stands for an error. -/
def parse (serde : SerdeJson nearest) (text : List Char) : Option Json :=
  (serde.from_str text).map (visit nearest)

end Visiting

/-- `Json::stringify`. -/
def Json.stringify (scientific : Scientific) (value : Json) : List Char :=
  writeValue scientific none [] value

/-! ## What a written value says -/

section Saying

variable (scientific : Scientific)

mutual

/-- What the text of a value says. -/
def Json.said : Json → JsonText
  | .null => .null
  | .bool value => .bool value
  | .number value => .number (spelledNumber scientific value)
  | .string value => .string value
  | .array items => .array (saidItems items)
  | .object members => .object (saidMembers members)

def saidItems : List Json → List JsonText
  | [] => []
  | item :: rest => item.said :: saidItems rest

def saidMembers : List (String × Json) → List (String × JsonText)
  | [] => []
  | (key, value) :: rest => (key, value.said) :: saidMembers rest

end

end Saying

mutual

/-- Whether every number of a value is one that holds this. -/
def Json.EachNumber (holds : Dyadic → Prop) : Json → Prop
  | .number value => holds value
  | .array items => EachNumberOfItems holds items
  | .object members => EachNumberOfMembers holds members
  | _ => True

def EachNumberOfItems (holds : Dyadic → Prop) : List Json → Prop
  | [] => True
  | item :: rest => item.EachNumber holds ∧ EachNumberOfItems holds rest

def EachNumberOfMembers (holds : Dyadic → Prop) : List (String × Json) → Prop
  | [] => True
  | (_, value) :: rest =>
      value.EachNumber holds ∧ EachNumberOfMembers holds rest

end

/-! ## A written value is read -/

theorem hexDigit_digitChar : ∀ digit < 16,
    JsonText.hexDigit (Nat.digitChar digit) = some digit := by
  decide

/-- An escaped character is read as the character it stands for. -/
theorem readString_escaped (character : Char) (rest : List Char) :
    JsonText.readString (escaped character ++ rest)
      = (JsonText.readString rest).map fun (text, rest) =>
        (character :: text, rest) := by
  unfold escaped
  split_ifs with quote slash back feed line carriage tab control
  · subst quote; rfl
  · subst slash; rfl
  · subst back; rfl
  · subst feed; rfl
  · subst line; rfl
  · subst carriage; rfl
  · subst tab; rfl
  · have high := hexDigit_digitChar (character.toNat / 16) (by omega)
    have low := hexDigit_digitChar (character.toNat % 16) (by omega)
    have zero : JsonText.hexDigit '0' = some 0 := by decide
    have unit : JsonText.hexUnit '0' '0' (Nat.digitChar (character.toNat / 16))
        (Nat.digitChar (character.toNat % 16)) = some character.toNat := by
      simp only [JsonText.hexUnit, zero, high, low, Option.bind_eq_bind,
        Option.bind_some]
      congr 1
      omega
    have single : JsonText.isHigh character.toNat = false
        ∧ JsonText.isLow character.toNat = false := by
      simp only [JsonText.isHigh, JsonText.isLow, Bool.and_eq_false_iff,
        decide_eq_false_iff_not]
      omega
    simp [JsonText.readString, unit, single]
  · simp [JsonText.readString, slash, control]

theorem readString_written (value : String) (rest : List Char) :
    JsonText.readString (value.toList.flatMap escaped ++ '\x22' :: rest)
      = some (value.toList, rest) := by
  induction value.toList with
  | nil => rfl
  | cons character others inductionHypothesis =>
      rw [List.flatMap_cons, List.append_assoc, readString_escaped,
        inductionHypothesis]
      rfl

section Written

variable {scientific : Scientific} {gap : Option (List Char)}

/-- Whether a text is white space. -/
def Spaces (text : List Char) : Prop :=
  ∀ character ∈ text, JsonText.isSpace character = true

/-- A value's text begins with a character that is no space and ends nothing. -/
theorem writeValue_starts (indent : List Char) (value : Json) :
    ∃ first others, writeValue scientific gap indent value = first :: others
      ∧ JsonText.isSpace first = false ∧ first ≠ ']' := by
  obtain ⟨first, others, written, kind⟩ :=
    kindOf_writeValue scientific gap indent value
  have begins : value.kind = .string → first = '\x22' := by
    intro text
    match value, text with
    | .string _, _ =>
        rw [writeValue, writeString, List.cons_append] at written
        exact (List.cons.inj written).1.symm
  have spaces : ∀ character, JsonText.isSpace character = true →
      kindOf character = .string := by
    intro character space
    simp only [JsonText.isSpace, Bool.or_eq_true, decide_eq_true_eq] at space
    rcases space with ((rfl | rfl) | rfl) | rfl <;> decide
  refine ⟨first, others, written, ?_, ?_⟩
  · by_contra space
    rw [Bool.not_eq_false] at space
    have quote := begins (kind.symm.trans (spaces first space))
    rw [quote] at space
    exact absurd space (by decide)
  · rintro rfl
    exact absurd (begins (kind.symm.trans (by decide))) (by decide)

theorem readScalar_space {space : List Char} (spaces : Spaces space)
    (text : List Char) :
    JsonText.readScalar (space ++ text) = JsonText.readScalar text := by
  unfold JsonText.readScalar
  rw [JsonText.skipSpace_append spaces]

theorem readValue_space {space : List Char} (spaces : Spaces space)
    (depth : Nat) (text : List Char) :
    JsonText.readValue depth (space ++ text) = JsonText.readValue depth text := by
  cases depth with
  | zero => exact readScalar_space spaces text
  | succ depth =>
      rw [JsonText.readValue, JsonText.readValue,
        JsonText.skipSpace_append spaces]
      simp only [readScalar_space spaces]

/-- A text that no bracket begins is a scalar's at every depth. -/
theorem readValue_scalar {first : Char} (visible : JsonText.isSpace first = false)
    (bracket : first ≠ '[') (brace : first ≠ '\x7b') (depth : Nat)
    (rest : List Char) :
    JsonText.readValue depth (first :: rest)
      = JsonText.readScalar (first :: rest) := by
  cases depth with
  | zero => rfl
  | succ depth =>
      simp [JsonText.readValue, JsonText.skipSpace_cons visible, bracket, brace]

theorem readScalar_numeric {first : Char} (numeric : isNumeric first = true)
    (rest : List Char) :
    JsonText.readScalar (first :: rest)
      = (Numeral.read (first :: rest)).map fun (numeral, rest) =>
        (.number numeral.value, rest) := by
  have visible : JsonText.isSpace first = false := by
    by_contra space
    rw [Bool.not_eq_false] at space
    simp only [JsonText.isSpace, Bool.or_eq_true, decide_eq_true_eq] at space
    rcases space with ((rfl | rfl) | rfl) | rfl <;>
      exact absurd numeric (by decide)
  have plain : first ≠ 'n' ∧ first ≠ 't' ∧ first ≠ 'f' ∧ first ≠ '\x22' := by
    refine ⟨?_, ?_, ?_, ?_⟩ <;> rintro rfl <;> exact absurd numeric (by decide)
  simp [JsonText.readScalar, JsonText.skipSpace_cons visible, plain]

theorem readValue_bracket (depth : Nat) (rest : List Char) :
    JsonText.readValue (depth + 1) ('[' :: rest)
      = (JsonText.readContainer (JsonText.readValue depth) ']' rest).map
        fun (items, rest) => (.array items, rest) := by
  rw [JsonText.readValue, JsonText.skipSpace_cons (by decide)]
  rfl

theorem readValue_brace (depth : Nat) (rest : List Char) :
    JsonText.readValue (depth + 1) ('\x7b' :: rest)
      = (JsonText.readContainer
          (JsonText.readMember (JsonText.readValue depth)) '\x7d' rest).map
        fun (members, rest) => (.object members, rest) := by
  rw [JsonText.readValue, JsonText.skipSpace_cons (by decide)]
  rfl

theorem ends_closed {closing : Char} (bracket : closing = ']' ∨ closing = '\x7d')
    (indent rest : List Char) :
    Numeral.Ends (closed gap indent closing rest) := by
  intro character first
  cases gap with
  | none =>
      obtain rfl : closing = character := by simpa [closed] using first
      rcases bracket with rfl | rfl <;> decide
  | some _ =>
      obtain rfl : '\n' = character := by simpa [closed] using first
      decide

theorem ends_follows {tail after : List Char} (ends : Numeral.Ends tail)
    (follows : JsonText.Follows tail after) : Numeral.Ends after := by
  rcases follows with rfl | ⟨rest, rfl⟩
  · exact ends
  · intro character first
    obtain rfl : ',' = character := by simpa using first
    decide

theorem skipSpace_closed {closing : Char}
    (visible : JsonText.isSpace closing = false) {indent : List Char}
    (spaces : Spaces indent) (rest : List Char) :
    JsonText.skipSpace (closed gap indent closing rest) = closing :: rest := by
  cases gap with
  | none => exact JsonText.skipSpace_cons visible rest
  | some _ =>
      have lines : Spaces ('\n' :: indent) :=
        List.forall_mem_cons.mpr ⟨by decide, spaces⟩
      change JsonText.skipSpace (('\n' :: indent) ++ closing :: rest) = _
      rw [JsonText.skipSpace_append lines, JsonText.skipSpace_cons visible]

theorem spaces_leading {inner : List Char} (spaces : Spaces inner) :
    Spaces (leading gap inner) := by
  cases gap with
  | none => simp [leading, Spaces]
  | some _ => exact List.forall_mem_cons.mpr ⟨by decide, spaces⟩

theorem writeItems_eq (inner : List Char) (items : List Json) :
    writeItems scientific gap inner items
      = items.map (writeValue scientific gap inner) := by
  induction items with
  | nil => rfl
  | cons item items inductionHypothesis =>
      rw [writeItems, inductionHypothesis, List.map_cons]

/-- The text of a member of an object. -/
def memberText (scientific : Scientific) (gap : Option (List Char))
    (inner : List Char) (member : String × Json) : List Char :=
  writeString member.1 ++ ':' :: (if gap.isSome then [' '] else [])
    ++ writeValue scientific gap inner member.2

theorem writeMembers_eq (inner : List Char) (members : List (String × Json)) :
    writeMembers scientific gap inner members
      = members.map (memberText scientific gap inner) := by
  induction members with
  | nil => rfl
  | cons member members inductionHypothesis =>
      obtain ⟨key, value⟩ := member
      rw [writeMembers, inductionHypothesis, List.map_cons]
      rfl

theorem saidItems_eq (items : List Json) :
    saidItems scientific items = items.map (Json.said scientific) := by
  induction items with
  | nil => rfl
  | cons item items inductionHypothesis =>
      rw [saidItems, inductionHypothesis, List.map_cons]

theorem saidMembers_eq (members : List (String × Json)) :
    saidMembers scientific members
      = members.map fun member => (member.1, member.2.said scientific) := by
  induction members with
  | nil => rfl
  | cons member members inductionHypothesis =>
      rw [saidMembers, inductionHypothesis, List.map_cons]

/-- An array is read where each of its items is. -/
theorem readArray_written {indent : List Char} {items : List Json}
    {depth : Nat} (spaced : Spaces (gap.getD [])) (spaces : Spaces indent)
    (nonempty : items ≠ [])
    (each : ∀ item ∈ items, ∀ after, Numeral.Ends after →
      JsonText.readValue depth (leading gap (innerIndent gap indent)
          ++ (writeValue scientific gap (innerIndent gap indent) item ++ after))
        = some (item.said scientific, after)) (rest : List Char) :
    JsonText.readValue (depth + 1)
        (writeContainer '[' ']' gap indent
          (writeItems scientific gap (innerIndent gap indent) items) ++ rest)
      = some (.array (saidItems scientific items), rest) := by
  have inner : Spaces (innerIndent gap indent) :=
    List.forall_mem_append.mpr ⟨spaces, spaced⟩
  have ends := @ends_closed gap ']' (.inl rfl) indent rest
  have container := @JsonText.readContainer_separated _
    (JsonText.readValue depth) ']' (leading gap (innerIndent gap indent))
    (closed gap indent ']' rest) rest (by decide)
    (skipSpace_closed (by decide) spaces rest)
    (items.map fun item =>
      (writeValue scientific gap (innerIndent gap indent) item,
        item.said scientific))
    (by simpa using nonempty) (spaces_leading inner)
    (by
      intro text member
      obtain ⟨item, held, rfl⟩ := List.mem_map.mp member
      exact writeValue_starts _ item)
    (by
      intro text member after follows
      obtain ⟨item, held, rfl⟩ := List.mem_map.mp member
      exact each item held after (ends_follows ends follows))
  rw [List.map_map, List.map_map] at container
  rw [writeContainer_append, readValue_bracket, writeItems_eq, saidItems_eq]
  exact congrArg (Option.map _) container

/-- A member is read where its value is. -/
theorem readMember_written {inner lead : List Char} {member : String × Json}
    {depth : Nat} (leads : Spaces lead) {after : List Char}
    (value : ∀ lead, Spaces lead →
      JsonText.readValue depth
          (lead ++ (writeValue scientific gap inner member.2 ++ after))
        = some (member.2.said scientific, after)) :
    JsonText.readMember (JsonText.readValue depth)
        (lead ++ (memberText scientific gap inner member ++ after))
      = some ((member.1, member.2.said scientific), after) := by
  have space : Spaces (if gap.isSome then [' '] else []) := by
    split_ifs <;> simp [Spaces, JsonText.isSpace]
  have text : memberText scientific gap inner member ++ after
      = '\x22' :: (member.1.toList.flatMap escaped ++ '\x22'
        :: (':' :: ((if gap.isSome then [' '] else [])
          ++ (writeValue scientific gap inner member.2 ++ after)))) := by
    simp [memberText, writeString]
  rw [JsonText.readMember, JsonText.skipSpace_append leads, text,
    JsonText.skipSpace_cons (by decide)]
  simp only [readString_written, Option.bind_eq_bind, Option.bind_some]
  rw [JsonText.skipSpace_cons (by decide)]
  simp only [value _ space, Option.bind_some, String.ofList_toList]

/-- An object is read where the value of each of its members is. -/
theorem readObject_written {indent : List Char}
    {members : List (String × Json)} {depth : Nat}
    (spaced : Spaces (gap.getD [])) (spaces : Spaces indent)
    (nonempty : members ≠ [])
    (each : ∀ member ∈ members, ∀ lead after, Spaces lead →
      Numeral.Ends after →
        JsonText.readValue depth (lead
            ++ (writeValue scientific gap (innerIndent gap indent) member.2
              ++ after))
          = some (member.2.said scientific, after)) (rest : List Char) :
    JsonText.readValue (depth + 1)
        (writeContainer '\x7b' '\x7d' gap indent
          (writeMembers scientific gap (innerIndent gap indent) members) ++ rest)
      = some (.object (saidMembers scientific members), rest) := by
  have inner : Spaces (innerIndent gap indent) :=
    List.forall_mem_append.mpr ⟨spaces, spaced⟩
  have ends := @ends_closed gap '\x7d' (.inr rfl) indent rest
  have container := @JsonText.readContainer_separated _
    (JsonText.readMember (JsonText.readValue depth)) '\x7d'
    (leading gap (innerIndent gap indent))
    (closed gap indent '\x7d' rest) rest (by decide)
    (skipSpace_closed (by decide) spaces rest)
    (members.map fun member =>
      (memberText scientific gap (innerIndent gap indent) member,
        (member.1, member.2.said scientific)))
    (by simpa using nonempty) (spaces_leading inner)
    (by
      intro text member
      obtain ⟨member, held, rfl⟩ := List.mem_map.mp member
      exact ⟨_, _, rfl, by decide, by decide⟩)
    (by
      intro text within after follows
      obtain ⟨member, held, rfl⟩ := List.mem_map.mp within
      exact readMember_written (spaces_leading inner) fun lead leads =>
        each member held lead after leads (ends_follows ends follows))
  rw [List.map_map, List.map_map] at container
  rw [writeContainer_append, readValue_brace, writeMembers_eq, saidMembers_eq]
  exact congrArg (Option.map _) container

mutual

/-- A value's text, wherever it stands, is read as what the value says. -/
theorem readValue_writeValue (spaced : Spaces (gap.getD [])) :
    ∀ (value : Json) (indent lead rest : List Char) (depth : Nat),
      Spaces indent → Spaces lead → Numeral.Ends rest →
        value.EachNumber (Canonical scientific) →
          (value.said scientific).depth ≤ depth →
            JsonText.readValue depth
                (lead ++ (writeValue scientific gap indent value ++ rest))
              = some (value.said scientific, rest)
  | .null, indent, lead, rest, depth, _, leads, _, _, _ => by
      rw [readValue_space leads, writeValue]
      exact readValue_scalar (by decide) (by decide) (by decide) depth _
  | .bool value, indent, lead, rest, depth, _, leads, _, _, _ => by
      rw [readValue_space leads]
      cases value <;>
        exact readValue_scalar (by decide) (by decide) (by decide) depth _
  | .string value, indent, lead, rest, depth, _, leads, _, _, _ => by
      have text : writeValue scientific gap indent (.string value) ++ rest
          = '\x22' :: (value.toList.flatMap escaped ++ '\x22' :: rest) := by
        simp [writeValue, writeString]
      rw [readValue_space leads, text,
        readValue_scalar (by decide) (by decide) (by decide),
        JsonText.readScalar, JsonText.skipSpace_cons (by decide)]
      simp only [readString_written, Option.map_some, String.ofList_toList,
        Json.said]
  | .number value, indent, lead, rest, depth, _, leads, ends, canonical, _ => by
      obtain ⟨numeral, read, denotes⟩ := read_numberToString canonical ends
      obtain ⟨first, others, written⟩ :=
        List.exists_cons_of_ne_nil (numberToString_ne_nil scientific value)
      have numeric := isNumeric_numberToString scientific value first
        (by simp [written])
      have visible : JsonText.isSpace first = false := by
        obtain ⟨character, _, also, visible, -⟩ :=
          @writeValue_starts scientific gap indent (.number value)
        rw [writeValue, written] at also
        exact (List.cons.inj also).1 ▸ visible
      have bracket : first ≠ '[' ∧ first ≠ '\x7b' := by
        constructor <;> rintro rfl <;> exact absurd numeric (by decide)
      rw [readValue_space leads, writeValue, Json.said]
      rw [written] at read ⊢
      rw [List.cons_append, readValue_scalar visible bracket.1 bracket.2,
        readScalar_numeric numeric]
      rw [List.cons_append] at read
      simp only [read, Option.map_some, denotes]
  | .array [], indent, lead, rest, depth, _, leads, _, _, deep => by
      obtain ⟨shallower, rfl⟩ := Nat.exists_eq_add_one.mpr deep
      rw [readValue_space leads]
      change JsonText.readValue (shallower + 1) ('[' :: ']' :: rest) = _
      rw [readValue_bracket, JsonText.readContainer_nothing _ (by decide)]
      rfl
  | .object [], indent, lead, rest, depth, _, leads, _, _, deep => by
      obtain ⟨shallower, rfl⟩ := Nat.exists_eq_add_one.mpr deep
      rw [readValue_space leads]
      change JsonText.readValue (shallower + 1) ('\x7b' :: '\x7d' :: rest) = _
      rw [readValue_brace, JsonText.readContainer_nothing _ (by decide)]
      rfl
  | .array (item :: items), indent, lead, rest, depth, spaces, leads, _,
      canonical, deep => by
      obtain ⟨shallower, rfl⟩ := Nat.exists_eq_add_one.mpr
        (Nat.lt_of_lt_of_le (Nat.succ_pos _) deep)
      have inner : Spaces (innerIndent gap indent) :=
        List.forall_mem_append.mpr ⟨spaces, spaced⟩
      rw [readValue_space leads, writeValue]
      exact readArray_written spaced spaces (by simp)
        (fun held member after ends =>
          readItems_written spaced (item :: items) _ _ shallower inner
            (spaces_leading inner) canonical (Nat.le_of_succ_le_succ deep) held
            member after ends) rest
  | .object (member :: members), indent, lead, rest, depth, spaces, leads, _,
      canonical, deep => by
      obtain ⟨shallower, rfl⟩ := Nat.exists_eq_add_one.mpr
        (Nat.lt_of_lt_of_le (Nat.succ_pos _) deep)
      have inner : Spaces (innerIndent gap indent) :=
        List.forall_mem_append.mpr ⟨spaces, spaced⟩
      rw [readValue_space leads, writeValue]
      exact readObject_written spaced spaces (by simp)
        (fun held within lead after leads ends =>
          readMembers_written spaced (member :: members) _ lead shallower inner
            leads canonical (Nat.le_of_succ_le_succ deep) held within after
            ends) rest

theorem readItems_written (spaced : Spaces (gap.getD [])) :
    ∀ (items : List Json) (inner lead : List Char) (depth : Nat),
      Spaces inner → Spaces lead →
        EachNumberOfItems (Canonical scientific) items →
          JsonText.depthItems (saidItems scientific items) ≤ depth →
            ∀ item ∈ items, ∀ after, Numeral.Ends after →
              JsonText.readValue depth
                  (lead ++ (writeValue scientific gap inner item ++ after))
                = some (item.said scientific, after)
  | [], _, _, _, _, _, _, _, _, held, _, _ => by cases held
  | first :: items, inner, lead, depth, spaces, leads, canonical, deep, item,
      held, after, ends => by
      rcases List.mem_cons.mp held with same | later
      · rw [same]
        exact readValue_writeValue spaced first inner lead after depth spaces
          leads ends canonical.1 ((Nat.le_max_left _ _).trans deep)
      · exact readItems_written spaced items inner lead depth spaces leads
          canonical.2 ((Nat.le_max_right _ _).trans deep) item later after ends

theorem readMembers_written (spaced : Spaces (gap.getD [])) :
    ∀ (members : List (String × Json)) (inner lead : List Char) (depth : Nat),
      Spaces inner → Spaces lead →
        EachNumberOfMembers (Canonical scientific) members →
          JsonText.depthMembers (saidMembers scientific members) ≤ depth →
            ∀ member ∈ members, ∀ after, Numeral.Ends after →
              JsonText.readValue depth
                  (lead ++ (writeValue scientific gap inner member.2 ++ after))
                = some (member.2.said scientific, after)
  | [], _, _, _, _, _, _, _, _, held, _, _ => by cases held
  | (key, value) :: members, inner, lead, depth, spaces, leads, canonical,
      deep, member, held, after, ends => by
      rcases List.mem_cons.mp held with same | later
      · rw [same]
        exact readValue_writeValue spaced value inner lead after depth spaces
          leads ends canonical.1 ((Nat.le_max_left _ _).trans deep)
      · exact readMembers_written spaced members inner lead depth spaces leads
          canonical.2 ((Nat.le_max_right _ _).trans deep) member later after ends

end

theorem length_writeContainer_pos {opening closing : Char}
    {indent : List Char} (texts : List (List Char)) :
    0 < (writeContainer opening closing gap indent texts).length := by
  cases gap <;> simp [writeContainer]

/-- What a container holds is no longer than the container. -/
theorem length_lt_writeContainer {opening closing : Char} {indent : List Char}
    {texts : List (List Char)} {text : List Char} (held : text ∈ texts) :
    text.length < (writeContainer opening closing gap indent texts).length := by
  have whole := @writeContainer_append gap opening closing indent texts []
  rw [List.append_nil] at whole
  have within := @JsonText.length_le_of_mem_separated
    (leading gap (innerIndent gap indent)) texts text held
  rw [whole]
  change text.length
    < (opening :: (JsonText.separated _ texts ++ _)).length
  rw [List.length_cons, List.length_append]
  omega

mutual

/-- A value is nested no deeper than its text is long. -/
theorem depth_le_length : ∀ (value : Json) (indent : List Char),
    (value.said scientific).depth
      ≤ (writeValue scientific gap indent value).length
  | .null, _ | .bool _, _ | .string _, _ | .number _, _ => Nat.zero_le _
  | .array [], _ => by simp [Json.said, saidItems, JsonText.depth,
      JsonText.depthItems, writeValue]
  | .object [], _ => by simp [Json.said, saidMembers, JsonText.depth,
      JsonText.depthMembers, writeValue]
  | .array (item :: items), indent => by
      rw [writeValue, Json.said, JsonText.depth]
      exact Nat.add_le_of_le_sub (length_writeContainer_pos _)
        (depthItems_le_length (item :: items) _ _ fun text held =>
          Nat.le_sub_one_of_lt (length_lt_writeContainer held))
  | .object (member :: members), indent => by
      rw [writeValue, Json.said, JsonText.depth]
      exact Nat.add_le_of_le_sub (length_writeContainer_pos _)
        (depthMembers_le_length (member :: members) _ _ fun text held =>
          Nat.le_sub_one_of_lt (length_lt_writeContainer held))

theorem depthItems_le_length :
    ∀ (items : List Json) (inner : List Char) (bound : Nat),
      (∀ text ∈ writeItems scientific gap inner items, text.length ≤ bound) →
        JsonText.depthItems (saidItems scientific items) ≤ bound
  | [], _, _, _ => Nat.zero_le _
  | item :: items, inner, bound, within => by
      rw [writeItems, List.forall_mem_cons] at within
      exact Nat.max_le.mpr ⟨(depth_le_length item inner).trans within.1,
        depthItems_le_length items inner bound within.2⟩

theorem depthMembers_le_length :
    ∀ (members : List (String × Json)) (inner : List Char) (bound : Nat),
      (∀ text ∈ writeMembers scientific gap inner members,
        text.length ≤ bound) →
        JsonText.depthMembers (saidMembers scientific members) ≤ bound
  | [], _, _, _ => Nat.zero_le _
  | (key, value) :: members, inner, bound, within => by
      rw [writeMembers, List.forall_mem_cons] at within
      have shorter : (writeValue scientific gap inner value).length ≤ bound := by
        refine Nat.le_trans ?_ within.1
        simp only [List.length_append, List.length_cons]
        omega
      exact Nat.max_le.mpr ⟨(depth_le_length value inner).trans shorter,
        depthMembers_le_length members inner bound within.2⟩

end

/-- A written value is read as what it says. -/
theorem read_writeValue (spaced : Spaces (gap.getD [])) {value : Json}
    (canonical : value.EachNumber (Canonical scientific)) :
    JsonText.read (writeValue scientific gap [] value)
      = some (value.said scientific) := by
  have read := readValue_writeValue spaced value [] [] [] _ (by simp [Spaces])
    (by simp [Spaces]) Numeral.ends_nil canonical
    (@depth_le_length scientific gap value [])
  rw [List.nil_append, List.append_nil] at read
  rw [JsonText.read, read]
  rfl

end Written

/-! ## What is read is what was written -/

/-- A number whose text reads back as it. -/
structure ReadsBack (nearest : ℚ → Option Dyadic) (scientific : Scientific)
    (value : Dyadic) : Prop where
  canonical : Canonical scientific value
  reads : nearest (spelledNumber scientific value) = some value

section EachNumber

variable {holds also : Dyadic → Prop}

mutual

theorem Json.EachNumber.imp (implies : ∀ value, holds value → also value) :
    ∀ {value : Json}, value.EachNumber holds → value.EachNumber also
  | .null, _ | .bool _, _ | .string _, _ => trivial
  | .number value, each => implies value each
  | .array _, each => eachNumberOfItems_imp implies each
  | .object _, each => eachNumberOfMembers_imp implies each

theorem eachNumberOfItems_imp (implies : ∀ value, holds value → also value) :
    ∀ {items : List Json}, EachNumberOfItems holds items →
      EachNumberOfItems also items
  | [], _ => trivial
  | _ :: _, each =>
      ⟨each.1.imp implies, eachNumberOfItems_imp implies each.2⟩

theorem eachNumberOfMembers_imp (implies : ∀ value, holds value → also value) :
    ∀ {members : List (String × Json)}, EachNumberOfMembers holds members →
      EachNumberOfMembers also members
  | [], _ => trivial
  | (_, _) :: _, each =>
      ⟨each.1.imp implies, eachNumberOfMembers_imp implies each.2⟩

end

end EachNumber

section Reordering

variable {holds : Dyadic → Prop}

theorem eachNumberOfMembers_iff {members : List (String × Json)} :
    EachNumberOfMembers holds members
      ↔ ∀ member ∈ members, member.2.EachNumber holds := by
  induction members with
  | nil => simp [EachNumberOfMembers]
  | cons member members inductionHypothesis =>
      obtain ⟨key, value⟩ := member
      rw [EachNumberOfMembers, inductionHypothesis, List.forall_mem_cons]

mutual

/-- Reordered, a value holds the same numbers. -/
theorem Json.EachNumber.reordered : ∀ {value other : Json},
    Reordered value other → value.EachNumber holds → other.EachNumber holds
  | .null, _, .null, _ | .bool _, _, .bool _, _
  | .string _, _, .string _, _ => trivial
  | .number _, _, .number _, each => each
  | .array _, _, .array alike, each => eachNumberOfItems_reordered alike each
  | .object _, _, .object alike same, each => by
      have middle := eachNumberOfMembers_reordered alike each
      rw [eachNumberOfMembers_iff] at middle
      exact eachNumberOfMembers_iff.mpr fun member held =>
        middle member (same.mem_iff.mpr held)

theorem eachNumberOfItems_reordered : ∀ {items others : List Json},
    ReorderedItems items others → EachNumberOfItems holds items →
      EachNumberOfItems holds others
  | [], _, .nil, _ => trivial
  | _ :: _, _, .cons first rest, each =>
      ⟨each.1.reordered first, eachNumberOfItems_reordered rest each.2⟩

theorem eachNumberOfMembers_reordered :
    ∀ {members others : List (String × Json)},
      ReorderedMembers members others → EachNumberOfMembers holds members →
        EachNumberOfMembers holds others
  | [], _, .nil, _ => trivial
  | (_, _) :: _, _, .cons first rest, each =>
      ⟨each.1.reordered first, eachNumberOfMembers_reordered rest each.2⟩

end

end Reordering

section RoundTrip

variable {nearest : ℚ → Option Dyadic} {scientific : Scientific}

mutual

/-- The numbers that a value says are in range where they read back. -/
theorem isSome_of_mem_numbers : ∀ {value : Json},
    value.EachNumber (ReadsBack nearest scientific) →
      ∀ number ∈ (value.said scientific).numbers, (nearest number).isSome
  | .null, _, _, held | .bool _, _, _, held | .string _, _, _, held => by
      cases held
  | .number value, each, number, held => by
      obtain rfl := List.mem_singleton.mp held
      rw [each.reads]
      rfl
  | .array items, each, number, held =>
      @isSome_of_mem_numbersItems items each number held
  | .object members, each, number, held =>
      @isSome_of_mem_numbersMembers members each number held

theorem isSome_of_mem_numbersItems : ∀ {items : List Json},
    EachNumberOfItems (ReadsBack nearest scientific) items →
      ∀ number ∈ JsonText.numbersItems (saidItems scientific items),
        (nearest number).isSome
  | [], _, _, held => by cases held
  | _ :: _, each, number, held => by
      rcases List.mem_append.mp held with here | later
      · exact isSome_of_mem_numbers each.1 number here
      · exact isSome_of_mem_numbersItems each.2 number later

theorem isSome_of_mem_numbersMembers : ∀ {members : List (String × Json)},
    EachNumberOfMembers (ReadsBack nearest scientific) members →
      ∀ number ∈ JsonText.numbersMembers (saidMembers scientific members),
        (nearest number).isSome
  | [], _, _, held => by cases held
  | (_, _) :: _, each, number, held => by
      rcases List.mem_append.mp held with here | later
      · exact isSome_of_mem_numbers each.1 number here
      · exact isSome_of_mem_numbersMembers each.2 number later

end

mutual

/-- However a value is handed over, the visitor makes that value of it. -/
theorem visit_of_delivers : ∀ {value : Json} {visits : Visit},
    value.WellFormed → value.EachNumber (ReadsBack nearest scientific) →
      Delivers nearest (value.said scientific) visits →
        visit nearest visits = value
  | .null, _, _, _, .null => rfl
  | .bool _, _, _, _, .bool _ => rfl
  | .string _, _, _, _, .str _ => rfl
  | .number value, visits, _, each, delivered => by
      have reads := each.reads
      rw [Json.said] at delivered
      generalize spelledNumber scientific value = number at reads delivered
      cases delivered with
      | i64 whole _ _ => rw [visit, asF64, reads, Option.getD_some]
      | u64 whole _ => rw [visit, asF64, reads, Option.getD_some]
      | f64 found =>
          rw [visit]
          exact congrArg Json.number (Option.some.inj (found.symm.trans reads))
  | .array items, _, wellFormed, each, .seq delivered =>
      congrArg Json.array (visitSeq_of_delivers wellFormed each delivered)
  | .object members, _, wellFormed, each, .map delivered => by
      unfold Json.WellFormed at wellFormed
      rw [visit, visitMap_of_delivers [] wellFormed.2 each delivered]
      exact congrArg Json.object (Members.ofMembers_of_ordered wellFormed.1)

theorem visitSeq_of_delivers : ∀ {items : List Json} {visits : List Visit},
    WellFormedItems items →
      EachNumberOfItems (ReadsBack nearest scientific) items →
        DeliversItems nearest (saidItems scientific items) visits →
          visitSeq nearest visits = items
  | [], _, _, _, .nil => rfl
  | _ :: _, _, wellFormed, each, .cons first others =>
      congrArg₂ List.cons (visit_of_delivers wellFormed.1 each.1 first)
        (visitSeq_of_delivers wellFormed.2 each.2 others)

theorem visitMap_of_delivers : ∀ {members : List (String × Json)}
    {entries : List (String × Visit)} (object : Members),
    WellFormedMembers members →
      EachNumberOfMembers (ReadsBack nearest scientific) members →
        DeliversMembers nearest (saidMembers scientific members) entries →
          visitMap nearest entries object = object.spread members
  | [], _, _, _, _, .nil => rfl
  | (key, value) :: members, _, object, wellFormed, each,
      .cons first others => by
      rw [visitMap, visit_of_delivers wellFormed.1 each.1 first,
        visitMap_of_delivers _ wellFormed.2 each.2 others]
      rfl

end

mutual

/-- How many containers deep a value is nested. -/
def Json.depth : Json → Nat
  | .array items => depthOfItems items + 1
  | .object members => depthOfMembers members + 1
  | _ => 0

def depthOfItems : List Json → Nat
  | [] => 0
  | item :: rest => max item.depth (depthOfItems rest)

def depthOfMembers : List (String × Json) → Nat
  | [] => 0
  | (_, value) :: rest => max value.depth (depthOfMembers rest)

end

mutual

theorem depth_said : ∀ value : Json,
    (value.said scientific).depth = value.depth
  | .null | .bool _ | .string _ | .number _ => rfl
  | .array items => congrArg (· + 1) (depth_saidItems items)
  | .object members => congrArg (· + 1) (depth_saidMembers members)

theorem depth_saidItems : ∀ items : List Json,
    JsonText.depthItems (saidItems scientific items) = depthOfItems items
  | [] => rfl
  | item :: items => congrArg₂ max (depth_said item) (depth_saidItems items)

theorem depth_saidMembers : ∀ members : List (String × Json),
    JsonText.depthMembers (saidMembers scientific members)
      = depthOfMembers members
  | [] => rfl
  | (_, value) :: members =>
      congrArg₂ max (depth_said value) (depth_saidMembers members)

end

mutual

/-- Values that say the same are the same, where their numbers read back. -/
theorem said_inj : ∀ {value other : Json},
    value.EachNumber (ReadsBack nearest scientific) →
      other.EachNumber (ReadsBack nearest scientific) →
        value.said scientific = other.said scientific → value = other
  | .null, other, _, _, same => by
      cases other <;> first | rfl | cases same
  | .bool value, other, _, _, same => by
      cases other <;> first | cases same; rfl | cases same
  | .string value, other, _, _, same => by
      cases other <;> first | cases same; rfl | cases same
  | .number value, other, each, also, same => by
      cases other with
      | number other =>
          have spelled : spelledNumber scientific value
              = spelledNumber scientific other := JsonText.number.inj same
          have reads := each.reads
          rw [spelled, also.reads] at reads
          rw [Option.some.inj reads]
      | _ => cases same
  | .array items, other, each, also, same => by
      cases other with
      | array others =>
          exact congrArg Json.array
            (saidItems_inj each also (JsonText.array.inj same))
      | _ => cases same
  | .object members, other, each, also, same => by
      cases other with
      | object others =>
          exact congrArg Json.object
            (saidMembers_inj each also (JsonText.object.inj same))
      | _ => cases same

theorem saidItems_inj : ∀ {items others : List Json},
    EachNumberOfItems (ReadsBack nearest scientific) items →
      EachNumberOfItems (ReadsBack nearest scientific) others →
        saidItems scientific items = saidItems scientific others →
          items = others
  | [], others, _, _, same => by
      cases others with
      | nil => rfl
      | cons _ _ => cases same
  | _ :: _, others, each, also, same => by
      cases others with
      | nil => cases same
      | cons _ _ =>
          exact congrArg₂ List.cons
            (said_inj each.1 also.1 (List.cons.inj same).1)
            (saidItems_inj each.2 also.2 (List.cons.inj same).2)

theorem saidMembers_inj : ∀ {members others : List (String × Json)},
    EachNumberOfMembers (ReadsBack nearest scientific) members →
      EachNumberOfMembers (ReadsBack nearest scientific) others →
        saidMembers scientific members = saidMembers scientific others →
          members = others
  | [], others, _, _, same => by
      cases others with
      | nil => rfl
      | cons _ _ => cases same
  | (key, _) :: _, others, each, also, same => by
      cases others with
      | nil => cases same
      | cons other _ =>
          obtain ⟨name, _⟩ := other
          obtain ⟨first, rest⟩ := List.cons.inj same
          obtain ⟨rfl, value⟩ := Prod.mk.inj first
          exact congrArg₂ List.cons
            (congrArg (Prod.mk key) (said_inj each.1 also.1 value))
            (saidMembers_inj each.2 also.2 rest)

end

/-- One text is of one value, where its numbers read back. -/
theorem stringify_inj {value other : Json}
    (each : value.EachNumber (ReadsBack nearest scientific))
    (also : other.EachNumber (ReadsBack nearest scientific))
    (same : Json.stringify scientific value = Json.stringify scientific other) :
    value = other := by
  have spaced : Spaces ((none : Option (List Char)).getD []) := by
    simp [Spaces]
  have read := read_writeValue spaced (each.imp fun _ reads => reads.canonical)
  have other_read :=
    read_writeValue spaced (also.imp fun _ reads => reads.canonical)
  unfold Json.stringify at same
  rw [same, other_read] at read
  exact said_inj each also (Option.some.inj read).symm

/-- What is parsed of a written value: that value, unless it is too deep. -/
theorem parse_writeValue (serde : SerdeJson nearest)
    {gap : Option (List Char)} (spaced : Spaces (gap.getD [])) {value : Json}
    (wellFormed : value.WellFormed)
    (each : value.EachNumber (ReadsBack nearest scientific)) :
    parse nearest serde (writeValue scientific gap [] value)
      = if value.depth < recursionLimit then some value else none := by
  have read := read_writeValue spaced
    (each.imp fun _ reads => reads.canonical)
  split_ifs with shallow
  · have said_shallow : (value.said scientific).depth < recursionLimit := by
      rwa [depth_said]
    obtain ⟨visits, handed, delivered⟩ := serde.delivers _ _ read said_shallow
      (isSome_of_mem_numbers each)
    rw [parse, handed, Option.map_some,
      visit_of_delivers wellFormed each delivered]
  · have said_deep : recursionLimit ≤ (value.said scientific).depth := by
      rw [depth_said]
      exact Nat.le_of_not_lt shallow
    rw [parse, serde.limited _ _ read said_deep]
    rfl

end RoundTrip

end Clerkenwell.Codegen
