import Clerkenwell.Codegen.Json

/-!
# How a JSON value is written

A text is the list of its characters.  What is written is told apart up to the
texts of numbers: where one value ends is seen from what follows it, so a text
holds one list of keys and strings only.
-/

namespace Clerkenwell.Codegen

/--
How the platform spells a positive double in scientific notation, the shortest
digits that read back as it and the exponent of the first.
-/
structure Scientific where
  digits : Dyadic → List Char
  exponent : Dyadic → Int
  nonempty : ∀ value, digits value ≠ []
  decimal : ∀ value, ∀ digit ∈ digits value, digit.isDigit = true

/-! ## What is written -/

/-- A number's digits with the point placed, given the exponent of the first. -/
def placePoint (digits : List Char) (exponent : Int) : List Char :=
  let count : Int := digits.length
  let point := exponent + 1
  if count ≤ point ∧ point ≤ 21 then
    digits ++ List.replicate (point - count).toNat '0'
  else if 0 < point ∧ point ≤ 21 then
    digits.take point.toNat ++ '.' :: digits.drop point.toNat
  else if -6 < point ∧ point ≤ 0 then
    '0' :: '.' :: List.replicate (-point).toNat '0' ++ digits
  else
    let sign := if exponent ≥ 0 then '+' else '-'
    let written := Nat.toDigits 10 exponent.natAbs
    if count = 1 then digits ++ 'e' :: sign :: written
    else digits.take 1 ++ '.' :: digits.drop 1 ++ 'e' :: sign :: written

section Writing

variable (scientific : Scientific)

/-- `Number.prototype.toString()` of a finite number. -/
def numberToString (value : Dyadic) : List Char :=
  if value = 0 then ['0']
  else
    let magnitude := if value < 0 then -value else value
    (if value < 0 then ['-'] else [])
      ++ placePoint (scientific.digits magnitude) (scientific.exponent magnitude)

/-- A character as a string literal holds it. -/
def escaped (character : Char) : List Char :=
  if character = '\x22' then ['\\', '\x22']
  else if character = '\\' then ['\\', '\\']
  else if character = '\x08' then ['\\', 'b']
  else if character = '\x0c' then ['\\', 'f']
  else if character = '\n' then ['\\', 'n']
  else if character = '\r' then ['\\', 'r']
  else if character = '\t' then ['\\', 't']
  else if character.toNat < 0x20 then
    ['\\', 'u', '0', '0', Nat.digitChar (character.toNat / 16),
      Nat.digitChar (character.toNat % 16)]
  else [character]

def writeString (value : String) : List Char :=
  '\x22' :: value.toList.flatMap escaped ++ ['\x22']

/-- The indent of what a container holds. -/
def innerIndent (gap : Option (List Char)) (indent : List Char) : List Char :=
  indent ++ gap.getD []

def writeContainer (opening closing : Char) (gap : Option (List Char))
    (indent : List Char) (members : List (List Char)) : List Char :=
  match gap with
  | some _ =>
      let line := fun member => '\n' :: innerIndent gap indent ++ member
      opening :: [','].intercalate (members.map line)
        ++ '\n' :: indent ++ [closing]
  | none => opening :: [','].intercalate members ++ [closing]

mutual

def writeValue (gap : Option (List Char)) (indent : List Char) :
    Json → List Char
  | .null => ['n', 'u', 'l', 'l']
  | .bool true => ['t', 'r', 'u', 'e']
  | .bool false => ['f', 'a', 'l', 's', 'e']
  | .number value => numberToString scientific value
  | .string text => writeString text
  | .array [] => ['[', ']']
  | .array (item :: rest) =>
      writeContainer '[' ']' gap indent
        (writeItems gap (innerIndent gap indent) (item :: rest))
  | .object [] => ['\x7b', '\x7d']
  | .object (member :: rest) =>
      writeContainer '\x7b' '\x7d' gap indent
        (writeMembers gap (innerIndent gap indent) (member :: rest))

def writeItems (gap : Option (List Char)) (inner : List Char) :
    List Json → List (List Char)
  | [] => []
  | item :: rest => writeValue gap inner item :: writeItems gap inner rest

def writeMembers (gap : Option (List Char)) (inner : List Char) :
    List (String × Json) → List (List Char)
  | [] => []
  | (key, value) :: rest =>
      (writeString key ++ ':' :: (if gap.isSome then [' '] else [])
        ++ writeValue gap inner value) :: writeMembers gap inner rest

end

/-- `JSON.stringify(value, null, 2)`. -/
def stringifyPretty (value : Json) : List Char :=
  writeValue scientific (some [' ', ' ']) [] value

end Writing

/-! ## What a text tells -/

/-- The number a hexadecimal digit stands for. -/
def hexValue (digit : Char) : Nat :=
  if digit.isDigit then digit.toNat - 48 else digit.toNat - 87

/-- The first character of a string literal's text, and the text after it. -/
def unescape : List Char → Option (Char × List Char)
  | '\\' :: 'u' :: _ :: _ :: high :: low :: rest =>
      some (Char.ofNat (hexValue high * 16 + hexValue low), rest)
  | '\\' :: 'b' :: rest => some ('\x08', rest)
  | '\\' :: 'f' :: rest => some ('\x0c', rest)
  | '\\' :: 'n' :: rest => some ('\n', rest)
  | '\\' :: 'r' :: rest => some ('\r', rest)
  | '\\' :: 't' :: rest => some ('\t', rest)
  | '\\' :: character :: rest => some (character, rest)
  | character :: rest => some (character, rest)
  | [] => none

theorem hexValue_digitChar : ∀ digit < 16,
    hexValue (Nat.digitChar digit) = digit := by
  decide

theorem unescape_escaped (character : Char) (rest : List Char) :
    unescape (escaped character ++ rest) = some (character, rest) := by
  unfold escaped
  split_ifs with quote slash back feed line carriage tab control
  · subst quote; rfl
  · subst slash; rfl
  · subst back; rfl
  · subst feed; rfl
  · subst line; rfl
  · subst carriage; rfl
  · subst tab; rfl
  · have high := hexValue_digitChar (character.toNat / 16) (by omega)
    have low := hexValue_digitChar (character.toNat % 16) (by omega)
    have whole : character.toNat / 16 * 16 + character.toNat % 16
        = character.toNat := by omega
    simp [unescape, high, low, whole]
  · simp [unescape, slash]

theorem escaped_append_inj {left right : Char} {rest others : List Char}
    (same : escaped left ++ rest = escaped right ++ others) :
    left = right ∧ rest = others := by
  have read := congrArg unescape same
  rw [unescape_escaped, unescape_escaped, Option.some.injEq, Prod.mk.injEq]
    at read
  exact read

/-- No character is written so as to end the literal. -/
theorem escaped_ne_quote (character : Char) (rest others : List Char) :
    escaped character ++ rest ≠ '\x22' :: others := by
  intro same
  unfold escaped at same
  split_ifs at same with quote <;> simp at same
  exact quote same.1

theorem writeString_append_inj {left right : String} {rest others : List Char}
    (same : writeString left ++ rest = writeString right ++ others) :
    left = right ∧ rest = others := by
  have general : ∀ left right : List Char,
      left.flatMap escaped ++ '\x22' :: rest
          = right.flatMap escaped ++ '\x22' :: others →
        left = right ∧ rest = others := by
    intro left
    induction left with
    | nil =>
        intro right same
        cases right with
        | nil => simpa using same
        | cons character right =>
            rw [List.flatMap_cons, List.append_assoc] at same
            exact (escaped_ne_quote _ _ _ same.symm).elim
    | cons character left inductionHypothesis =>
        intro right same
        cases right with
        | nil =>
            rw [List.flatMap_cons, List.append_assoc] at same
            exact (escaped_ne_quote _ _ _ same).elim
        | cons other right =>
            rw [List.flatMap_cons, List.flatMap_cons, List.append_assoc,
              List.append_assoc] at same
            obtain ⟨rfl, later⟩ := escaped_append_inj same
            obtain ⟨rfl, ended⟩ := inductionHypothesis right later
            exact ⟨rfl, ended⟩
  obtain ⟨read, ended⟩ := general left.toList right.toList (by
    simpa [writeString] using same)
  exact ⟨String.toList_inj.mp read, ended⟩

/-- A character a number's text may hold. -/
def isNumeric (character : Char) : Bool :=
  character.isDigit || character = '-' || character = '.' || character = 'e'
    || character = '+'

theorem isNumeric_of_isDigit {character : Char}
    (digit : character.isDigit = true) : isNumeric character = true := by
  simp [isNumeric, digit]

theorem isNumeric_placePoint {digits : List Char}
    (decimal : ∀ digit ∈ digits, digit.isDigit = true) (exponent : Int) :
    ∀ character ∈ placePoint digits exponent, isNumeric character = true := by
  have numeric : ∀ digit ∈ digits, isNumeric digit = true := fun digit member =>
    isNumeric_of_isDigit (decimal digit member)
  have taken : ∀ count, ∀ digit ∈ digits.take count, isNumeric digit = true :=
    fun count digit member => numeric digit (List.mem_of_mem_take member)
  have dropped : ∀ count, ∀ digit ∈ digits.drop count, isNumeric digit = true :=
    fun count digit member => numeric digit (List.mem_of_mem_drop member)
  have zeros : ∀ count, ∀ digit ∈ List.replicate count '0',
      isNumeric digit = true := fun count digit member => by
    rw [List.eq_of_mem_replicate member]
    decide
  have written : ∀ digit ∈ Nat.toDigits 10 exponent.natAbs,
      isNumeric digit = true := fun digit member =>
    isNumeric_of_isDigit
      (Nat.isDigit_of_mem_toDigits (by decide) (by decide) member)
  have plus : isNumeric '+' = true := by decide
  have minus : isNumeric '-' = true := by decide
  have point : isNumeric '.' = true := by decide
  have mark : isNumeric 'e' = true := by decide
  have zero : isNumeric '0' = true := by decide
  simp only [placePoint]
  split_ifs <;>
    simp only [List.forall_mem_append, List.forall_mem_cons, List.cons_append]
  · exact ⟨numeric, zeros _⟩
  · exact ⟨taken _, point, dropped _⟩
  · exact ⟨zero, point, zeros _, numeric⟩
  · exact ⟨numeric, mark, plus, written⟩
  · exact ⟨numeric, mark, minus, written⟩
  · exact ⟨⟨taken _, point, dropped _⟩, mark, plus, written⟩
  · exact ⟨⟨taken _, point, dropped _⟩, mark, minus, written⟩

theorem isNumeric_numberToString (scientific : Scientific) (value : Dyadic) :
    ∀ character ∈ numberToString scientific value,
      isNumeric character = true := by
  have placed := isNumeric_placePoint
    (scientific.decimal (if value < 0 then -value else value))
    (scientific.exponent (if value < 0 then -value else value))
  unfold numberToString
  split_ifs with zero negative
  · simp [isNumeric]
  · simp only [negative, if_true] at placed
    simp only [List.forall_mem_append]
    exact ⟨by simp [isNumeric], placed⟩
  · simp only [negative, if_false] at placed
    simpa [negative] using placed

theorem placePoint_ne_nil {digits : List Char} (nonempty : digits ≠ [])
    (exponent : Int) : placePoint digits exponent ≠ [] := by
  simp only [placePoint]
  split_ifs <;> simp [nonempty]

theorem numberToString_ne_nil (scientific : Scientific) (value : Dyadic) :
    numberToString scientific value ≠ [] := by
  unfold numberToString
  split_ifs
  · simp
  · simp
  · simpa using placePoint_ne_nil (scientific.nonempty _) _

/-- What may follow a value that a container holds. -/
def Delimited (rest : List Char) : Prop :=
  ∀ character ∈ rest.head?, isNumeric character = false

/-- The number is where the text stops being numeric. -/
theorem numeric_append_inj {left right rest others : List Char}
    (left_numeric : ∀ character ∈ left, isNumeric character = true)
    (right_numeric : ∀ character ∈ right, isNumeric character = true)
    (rest_ends : Delimited rest) (others_end : Delimited others)
    (same : left ++ rest = right ++ others) : rest = others := by
  have stop : ∀ {text rest : List Char},
      (∀ character ∈ text, isNumeric character = true) → Delimited rest →
        (text ++ rest).dropWhile isNumeric = rest := by
    intro text rest numeric ends
    rw [List.dropWhile_append_of_pos numeric]
    cases rest with
    | nil => rfl
    | cons character rest =>
        exact List.dropWhile_cons_of_neg (by simp [ends character (by simp)])
  rw [← stop left_numeric rest_ends, same, stop right_numeric others_end]

mutual

/-- A value with every number taken for one. -/
def Json.unnumbered : Json → Json
  | .number _ => .number 0
  | .array items => .array (unnumberedItems items)
  | .object members => .object (unnumberedMembers members)
  | other => other

def unnumberedItems : List Json → List Json
  | [] => []
  | item :: rest => item.unnumbered :: unnumberedItems rest

def unnumberedMembers : List (String × Json) → List (String × Json)
  | [] => []
  | (key, value) :: rest => (key, value.unnumbered) :: unnumberedMembers rest

end

/-- What kind of value there is, each boolean its own. -/
inductive Kind where
  | null
  | yes
  | no
  | number
  | string
  | array
  | object
deriving DecidableEq

def Json.kind : Json → Kind
  | .null => .null
  | .bool true => .yes
  | .bool false => .no
  | .number _ => .number
  | .string _ => .string
  | .array _ => .array
  | .object _ => .object

/-- The kind of value a text that begins so is of. -/
def kindOf (first : Char) : Kind :=
  if isNumeric first then .number
  else if first = 'n' then .null
  else if first = 't' then .yes
  else if first = 'f' then .no
  else if first = '[' then .array
  else if first = '\x7b' then .object
  else .string

section Reading

variable (scientific : Scientific)

theorem kindOf_writeValue (gap : Option (List Char)) (indent : List Char)
    (value : Json) :
    ∃ first rest, writeValue scientific gap indent value = first :: rest
      ∧ kindOf first = value.kind := by
  match value with
  | .null | .bool true | .bool false => exact ⟨_, _, rfl, by decide⟩
  | .string text => exact ⟨_, _, rfl, rfl⟩
  | .array [] | .object [] => exact ⟨_, _, rfl, rfl⟩
  | .array (item :: others) => cases gap <;> exact ⟨_, _, rfl, rfl⟩
  | .object (member :: others) => cases gap <;> exact ⟨_, _, rfl, rfl⟩
  | .number value =>
      obtain ⟨first, others, text⟩ :=
        List.exists_cons_of_ne_nil (numberToString_ne_nil scientific value)
      have numeric := isNumeric_numberToString scientific value first
        (by simp [text])
      exact ⟨first, others, text, by simp [kindOf, numeric, Json.kind]⟩

theorem kind_eq_of_writeValue {gap : Option (List Char)}
    {indent rest others : List Char} {value other : Json}
    (same : writeValue scientific gap indent value ++ rest
      = writeValue scientific gap indent other ++ others) :
    value.kind = other.kind := by
  obtain ⟨first, text, written, kind⟩ :=
    kindOf_writeValue scientific gap indent value
  obtain ⟨other_first, other_text, other_written, other_kind⟩ :=
    kindOf_writeValue scientific gap indent other
  rw [written, other_written, List.cons_append, List.cons_append,
    List.cons.injEq] at same
  rw [← kind, same.1, other_kind]

/-- No value's text begins as an array ends. -/
theorem writeValue_ne_bracket (gap : Option (List Char)) (indent : List Char)
    (value : Json) :
    ∃ first rest, writeValue scientific gap indent value = first :: rest
      ∧ first ≠ ']' := by
  obtain ⟨first, rest, written, kind⟩ :=
    kindOf_writeValue scientific gap indent value
  refine ⟨first, rest, written, ?_⟩
  rintro rfl
  have string : value.kind = .string := kind.symm.trans (by decide)
  match value with
  | .string text => simp [writeValue, writeString] at written
  | .null | .number _ | .array _ | .object _ => cases string
  | .bool true | .bool false => cases string

variable (gap : Option (List Char))

/-- What stands before each member of a container. -/
def leading (inner : List Char) : List Char :=
  match gap with
  | some _ => '\n' :: inner
  | none => []

/-- What stands after the last member of a container. -/
def closed (indent : List Char) (closing : Char) (rest : List Char) :
    List Char :=
  match gap with
  | some _ => '\n' :: indent ++ closing :: rest
  | none => closing :: rest

/-- A container's members, and what follows the last. -/
def lines (inner : List Char) (members : List (List Char))
    (rest : List Char) : List Char :=
  [','].intercalate (members.map fun member => leading gap inner ++ member)
    ++ rest

/-- What may follow the last member of a container. -/
def Closes (rest : List Char) : Prop :=
  ∀ character ∈ rest.head?, isNumeric character = false ∧ character ≠ ','

variable {gap}

theorem Closes.delimited {rest : List Char} (closes : Closes rest) :
    Delimited rest :=
  fun character first => (closes character first).1

theorem Closes.ne_comma {rest others : List Char} (closes : Closes rest) :
    rest ≠ ',' :: others := by
  rintro rfl
  exact (closes ',' rfl).2 rfl

theorem closes_closed {closing : Char} (numeric : isNumeric closing = false)
    (comma : closing ≠ ',') (indent rest : List Char) :
    Closes (closed gap indent closing rest) := by
  intro character first
  cases gap with
  | none =>
      obtain rfl : closing = character := by simpa [closed] using first
      exact ⟨numeric, comma⟩
  | some _ =>
      obtain rfl : '\n' = character := by simpa [closed] using first
      decide

theorem closed_inj {indent rest others : List Char} {closing : Char}
    (same : closed gap indent closing rest = closed gap indent closing others) :
    rest = others := by
  cases gap <;> simpa [closed] using same

theorem lines_cons (inner member : List Char) (members : List (List Char))
    {rest : List Char} (closes : Closes rest) :
    ∃ after, lines gap inner (member :: members) rest
        = leading gap inner ++ (member ++ after)
      ∧ Delimited after
      ∧ after = match members with
        | [] => rest
        | next :: others => ',' :: lines gap inner (next :: others) rest := by
  cases members with
  | nil => exact ⟨rest, by simp [lines], closes.delimited, rfl⟩
  | cons next others =>
      refine ⟨',' :: lines gap inner (next :: others) rest, by simp [lines], ?_,
        rfl⟩
      intro character first
      obtain rfl : ',' = character := by simpa using first
      decide

/-- A container's text is its bracket, its lines and the bracket that ends it. -/
theorem writeContainer_append (opening closing : Char) (indent : List Char)
    (members : List (List Char)) (rest : List Char) :
    writeContainer opening closing gap indent members ++ rest
      = opening :: lines gap (innerIndent gap indent) members
          (closed gap indent closing rest) := by
  cases gap <;> simp [writeContainer, lines, leading, closed]

/-- An empty container's text is no text of one that holds a member. -/
theorem bracket_ne_lines {closing first : Char} (newline : closing ≠ '\n')
    (differs : first ≠ closing) (rest inner member : List Char)
    (members : List (List Char)) (tail : List Char) :
    closing :: rest
      ≠ lines gap inner ((first :: member) :: members) tail := by
  intro same
  cases gap with
  | none =>
      cases members <;> simp [lines, leading] at same <;>
        exact differs same.1.symm
  | some _ =>
      cases members <;> simp [lines, leading] at same <;>
        exact newline same.1

mutual

/--
A value's text, wherever it is followed by what follows one in a container,
ends where the value does, and is of no value but it, numbers aside.
-/
theorem writeValue_append_inj :
    ∀ (value other : Json) (indent rest others : List Char),
      Delimited rest → Delimited others →
        writeValue scientific gap indent value ++ rest
            = writeValue scientific gap indent other ++ others →
          value.unnumbered = other.unnumbered ∧ rest = others
  | value, other, indent, rest, others, rest_ends, others_end, same => by
      have kinds := kind_eq_of_writeValue scientific same
      match value, other with
      | .null, .null => exact ⟨rfl, by simpa [writeValue] using same⟩
      | .bool true, .bool true => exact ⟨rfl, by simpa [writeValue] using same⟩
      | .bool false, .bool false =>
          exact ⟨rfl, by simpa [writeValue] using same⟩
      | .number value, .number other =>
          exact ⟨rfl, numeric_append_inj
            (isNumeric_numberToString scientific value)
            (isNumeric_numberToString scientific other) rest_ends others_end
            same⟩
      | .string text, .string other =>
          obtain ⟨rfl, ended⟩ := writeString_append_inj same
          exact ⟨rfl, ended⟩
      | .array [], .array [] => exact ⟨rfl, by simpa [writeValue] using same⟩
      | .array [], .array (item :: items) =>
          rw [writeValue, writeValue, writeContainer_append, writeItems] at same
          obtain ⟨first, text, written, differs⟩ := writeValue_ne_bracket
            scientific gap (innerIndent gap indent) item
          rw [written] at same
          exact (bracket_ne_lines (by decide) differs _ _ _ _ _
            (List.cons.inj same).2).elim
      | .array (item :: items), .array [] =>
          rw [writeValue, writeValue, writeContainer_append, writeItems] at same
          obtain ⟨first, text, written, differs⟩ := writeValue_ne_bracket
            scientific gap (innerIndent gap indent) item
          rw [written] at same
          exact (bracket_ne_lines (by decide) differs _ _ _ _ _
            (List.cons.inj same).2.symm).elim
      | .array (item :: items), .array (next :: nexts) =>
          rw [writeValue, writeValue, writeContainer_append,
            writeContainer_append] at same
          obtain ⟨alike, tails⟩ := writeItems_inj (item :: items)
            (next :: nexts) _ _ _ (by simp) (by simp)
            (closes_closed (by decide) (by decide) _ _)
            (closes_closed (by decide) (by decide) _ _) (List.cons.inj same).2
          refine ⟨by rw [Json.unnumbered, Json.unnumbered, alike], ?_⟩
          exact closed_inj tails
      | .object [], .object [] => exact ⟨rfl, by simpa [writeValue] using same⟩
      | .object [], .object ((key, value) :: members) =>
          rw [writeValue, writeValue, writeContainer_append, writeMembers,
            writeString] at same
          exact (bracket_ne_lines (by decide) (by decide) _ _ _ _ _
            (List.cons.inj same).2).elim
      | .object ((key, value) :: members), .object [] =>
          rw [writeValue, writeValue, writeContainer_append, writeMembers,
            writeString] at same
          exact (bracket_ne_lines (by decide) (by decide) _ _ _ _ _
            (List.cons.inj same).2.symm).elim
      | .object (member :: members), .object (next :: nexts) =>
          rw [writeValue, writeValue, writeContainer_append,
            writeContainer_append] at same
          obtain ⟨alike, tails⟩ := writeMembers_inj (member :: members)
            (next :: nexts) _ _ _ (by simp) (by simp)
            (closes_closed (by decide) (by decide) _ _)
            (closes_closed (by decide) (by decide) _ _) (List.cons.inj same).2
          refine ⟨by rw [Json.unnumbered, Json.unnumbered, alike], ?_⟩
          exact closed_inj tails

theorem writeItems_inj :
    ∀ (items others : List Json) (inner tail tails : List Char),
      items ≠ [] → others ≠ [] → Closes tail → Closes tails →
        lines gap inner (writeItems scientific gap inner items) tail
            = lines gap inner (writeItems scientific gap inner others) tails →
          unnumberedItems items = unnumberedItems others ∧ tail = tails
  | [], _, _, _, _, nonempty, _, _, _, _ => absurd rfl nonempty
  | _ :: _, [], _, _, _, _, nonempty, _, _, _ => absurd rfl nonempty
  | item :: items, other :: others, inner, tail, tails, _, _, closes, also,
      same => by
      rw [writeItems, writeItems] at same
      obtain ⟨after, written, ends, rest⟩ := lines_cons inner
        (writeValue scientific gap inner item)
        (writeItems scientific gap inner items) closes
      obtain ⟨afters, other_written, other_ends, other_rest⟩ := lines_cons inner
        (writeValue scientific gap inner other)
        (writeItems scientific gap inner others) also
      rw [written, other_written] at same
      obtain ⟨alike, later⟩ := writeValue_append_inj item other inner after
        afters ends other_ends (List.append_cancel_left same)
      rw [rest, other_rest] at later
      match items, others with
      | [], [] =>
          exact ⟨by rw [unnumberedItems, unnumberedItems, alike]; rfl, later⟩
      | [], _ :: _ => exact (closes.ne_comma later).elim
      | _ :: _, [] => exact (also.ne_comma later.symm).elim
      | next :: items, another :: others =>
          obtain ⟨rest_alike, tails⟩ := writeItems_inj (next :: items)
            (another :: others) inner tail tails (by simp) (by simp) closes also
            (List.cons.inj later).2
          exact ⟨congrArg₂ List.cons alike rest_alike, tails⟩

theorem writeMembers_inj :
    ∀ (members others : List (String × Json)) (inner tail tails : List Char),
      members ≠ [] → others ≠ [] → Closes tail → Closes tails →
        lines gap inner (writeMembers scientific gap inner members) tail
            = lines gap inner (writeMembers scientific gap inner others)
              tails →
          unnumberedMembers members = unnumberedMembers others ∧ tail = tails
  | [], _, _, _, _, nonempty, _, _, _, _ => absurd rfl nonempty
  | _ :: _, [], _, _, _, _, nonempty, _, _, _ => absurd rfl nonempty
  | (key, value) :: members, (name, other) :: others, inner, tail, tails, _, _,
      closes, also, same => by
      rw [writeMembers, writeMembers] at same
      obtain ⟨after, written, ends, rest⟩ := lines_cons inner
        (writeString key ++ ':' :: (if gap.isSome then [' '] else [])
          ++ writeValue scientific gap inner value)
        (writeMembers scientific gap inner members) closes
      obtain ⟨afters, other_written, other_ends, other_rest⟩ := lines_cons inner
        (writeString name ++ ':' :: (if gap.isSome then [' '] else [])
          ++ writeValue scientific gap inner other)
        (writeMembers scientific gap inner others) also
      rw [written, other_written] at same
      have line := List.append_cancel_left same
      simp only [List.append_assoc] at line
      obtain ⟨rfl, written⟩ := writeString_append_inj line
      obtain ⟨alike, later⟩ := writeValue_append_inj value other inner after
        afters ends other_ends
        (List.append_cancel_left (List.cons.inj written).2)
      rw [rest, other_rest] at later
      match members, others with
      | [], [] =>
          exact ⟨by rw [unnumberedMembers, unnumberedMembers, alike]; rfl, later⟩
      | [], (_, _) :: _ => exact (closes.ne_comma later).elim
      | (_, _) :: _, [] => exact (also.ne_comma later.symm).elim
      | (next, held) :: members, (another, found) :: others =>
          obtain ⟨rest_alike, tails⟩ := writeMembers_inj
            ((next, held) :: members) ((another, found) :: others) inner tail
            tails (by simp) (by simp) closes also (List.cons.inj later).2
          exact ⟨congrArg₂ List.cons (congrArg (Prod.mk key) alike) rest_alike,
            tails⟩

end

/-- One text is of one value, numbers aside. -/
theorem unnumbered_eq_of_writeValue {value other : Json}
    (same : writeValue scientific gap [] value
      = writeValue scientific gap [] other) :
    value.unnumbered = other.unnumbered := by
  have ends : Delimited [] := by simp [Delimited]
  exact (writeValue_append_inj scientific value other [] [] [] ends ends
    (by simpa using same)).1

theorem unnumbered_eq_of_stringifyPretty {value other : Json}
    (same : stringifyPretty scientific value = stringifyPretty scientific other) :
    value.unnumbered = other.unnumbered :=
  unnumbered_eq_of_writeValue scientific same

end Reading

end Clerkenwell.Codegen
