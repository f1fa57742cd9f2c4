import Clerkenwell.Foundation.Numerals

/-!
# What a JSON text says

The grammar of JSON as a function from a text to what it says: an object's
members as they stand, a repeated name each time, and a number as the rational
number its numeral stands for.  A text is the list of its characters.

A value is read at most so many containers deep, which is what the recursion
over nested texts is on.
-/

namespace Clerkenwell.Foundation

/-- What a JSON text says. -/
inductive JsonText where
  | null
  | bool (value : Bool)
  | number (value : ℚ)
  | string (value : String)
  | array (items : List JsonText)
  | object (members : List (String × JsonText))

namespace JsonText

mutual

/-- How many containers deep a value is nested. -/
def depth : JsonText → Nat
  | .array items => depthItems items + 1
  | .object members => depthMembers members + 1
  | _ => 0

def depthItems : List JsonText → Nat
  | [] => 0
  | item :: rest => max item.depth (depthItems rest)

def depthMembers : List (String × JsonText) → Nat
  | [] => 0
  | (_, value) :: rest => max value.depth (depthMembers rest)

end

mutual

/-- The numbers a text holds. -/
def numbers : JsonText → List ℚ
  | .number value => [value]
  | .array items => numbersItems items
  | .object members => numbersMembers members
  | _ => []

def numbersItems : List JsonText → List ℚ
  | [] => []
  | item :: rest => item.numbers ++ numbersItems rest

def numbersMembers : List (String × JsonText) → List ℚ
  | [] => []
  | (_, value) :: rest => value.numbers ++ numbersMembers rest

end

/-! ## Strings -/

/-- The value of a hexadecimal digit. -/
def hexDigit (digit : Char) : Option Nat :=
  if digit.isDigit then some (digit.toNat - 48)
  else if 'a' ≤ digit ∧ digit ≤ 'f' then some (digit.toNat - 87)
  else if 'A' ≤ digit ∧ digit ≤ 'F' then some (digit.toNat - 55)
  else none

/-- The code unit that four hexadecimal digits spell. -/
def hexUnit (first second third fourth : Char) : Option Nat := do
  let first ← hexDigit first
  let second ← hexDigit second
  let third ← hexDigit third
  let fourth ← hexDigit fourth
  some (((first * 16 + second) * 16 + third) * 16 + fourth)

/-- The character that a backslash and one character more stand for. -/
def shortEscape (character : Char) : Option Char :=
  if character = '\x22' then some '\x22'
  else if character = '\\' then some '\\'
  else if character = '/' then some '/'
  else if character = 'b' then some '\x08'
  else if character = 'f' then some '\x0c'
  else if character = 'n' then some '\n'
  else if character = 'r' then some '\r'
  else if character = 't' then some '\t'
  else none

/-- Whether a code unit begins a pair of two. -/
def isHigh (unit : Nat) : Bool :=
  0xD800 ≤ unit && unit < 0xDC00

/-- Whether a code unit ends a pair of two. -/
def isLow (unit : Nat) : Bool :=
  0xDC00 ≤ unit && unit < 0xE000

/-- The characters up to the quote that ends a string, and the text after it. -/
def readString : List Char → Option (List Char × List Char)
  | [] => none
  | '\x22' :: rest => some ([], rest)
  | '\\' :: 'u' :: first :: second :: third :: fourth :: rest =>
      match hexUnit first second third fourth with
      | none => none
      | some unit =>
          if isHigh unit then
            match rest with
            | '\\' :: 'u' :: first :: second :: third :: fourth :: rest =>
                match hexUnit first second third fourth with
                | none => none
                | some low =>
                    if isLow low then
                      (readString rest).map fun (text, rest) =>
                        (Char.ofNat (0x10000 + (unit - 0xD800) * 0x400
                          + (low - 0xDC00)) :: text, rest)
                    else none
            | _ => none
          else if isLow unit then none
          else
            (readString rest).map fun (text, rest) =>
              (Char.ofNat unit :: text, rest)
  | '\\' :: character :: rest =>
      match shortEscape character with
      | none => none
      | some character =>
          (readString rest).map fun (text, rest) => (character :: text, rest)
  | character :: rest =>
      if character.toNat < 0x20 then none
      else (readString rest).map fun (text, rest) => (character :: text, rest)

/-! ## Values -/

def isSpace (character : Char) : Bool :=
  character = ' ' || character = '\n' || character = '\r' || character = '\t'

/-- The text after the white space it begins with. -/
def skipSpace (text : List Char) : List Char :=
  text.dropWhile isSpace

/-- A value that holds no other. -/
def readScalar (text : List Char) : Option (JsonText × List Char) :=
  match skipSpace text with
  | 'n' :: 'u' :: 'l' :: 'l' :: rest => some (.null, rest)
  | 't' :: 'r' :: 'u' :: 'e' :: rest => some (.bool true, rest)
  | 'f' :: 'a' :: 'l' :: 's' :: 'e' :: rest => some (.bool false, rest)
  | '\x22' :: rest => (readString rest).map fun (text, rest) =>
      (.string (String.ofList text), rest)
  | text => (Numeral.read text).map fun (numeral, rest) =>
      (.number numeral.value, rest)

section Separated

variable {Item : Type}

/-- Items that commas separate, up to the character that ends them. -/
def readSeparated (read : List Char → Option (Item × List Char))
    (closing : Char) : Nat → List Char → Option (List Item × List Char)
  | 0, _ => none
  | count + 1, text => do
      let (item, rest) ← read text
      match skipSpace rest with
      | [] => none
      | character :: rest =>
          if character = closing then some ([item], rest)
          else if character = ',' then do
            let (items, rest) ← readSeparated read closing count rest
            some (item :: items, rest)
          else none

/-- What a bracket opens: nothing, or items that commas separate. -/
def readContainer (read : List Char → Option (Item × List Char))
    (closing : Char) (text : List Char) : Option (List Item × List Char) :=
  match skipSpace text with
  | [] => none
  | character :: rest =>
      if character = closing then some ([], rest)
      else readSeparated read closing text.length text

/-- A name, a colon and a value. -/
def readMember (read : List Char → Option (Item × List Char))
    (text : List Char) : Option ((String × Item) × List Char) :=
  match skipSpace text with
  | '\x22' :: rest => do
      let (key, rest) ← readString rest
      match skipSpace rest with
      | ':' :: rest => do
          let (value, rest) ← read rest
          some ((String.ofList key, value), rest)
      | _ => none
  | _ => none

end Separated

/-- The value a text begins with, if it is nested no deeper than so much. -/
def readValue : Nat → List Char → Option (JsonText × List Char)
  | 0, text => readScalar text
  | depth + 1, text =>
      match skipSpace text with
      | '[' :: rest => (readContainer (readValue depth) ']' rest).map
          fun (items, rest) => (.array items, rest)
      | '\x7b' :: rest =>
          (readContainer (readMember (readValue depth)) '\x7d' rest).map
            fun (members, rest) => (.object members, rest)
      | _ => readScalar text

/-- What a text says, where it is one value and white space. -/
def read (text : List Char) : Option JsonText := do
  let (value, rest) ← readValue text.length text
  if skipSpace rest = [] then some value else none

/-! ## How separated items are read -/

theorem skipSpace_append {space : List Char}
    (spaces : ∀ character ∈ space, isSpace character = true)
    (text : List Char) : skipSpace (space ++ text) = skipSpace text :=
  List.dropWhile_append_of_pos spaces

theorem skipSpace_cons {character : Char} (visible : isSpace character = false)
    (rest : List Char) : skipSpace (character :: rest) = character :: rest :=
  List.dropWhile_cons_of_neg (by simp [visible])

section Written

variable {Item : Type} {read : List Char → Option (Item × List Char)}
  {closing : Char} {lead tail rest : List Char}

/-- Texts after one another, a comma between each two. -/
def separated (lead : List Char) (texts : List (List Char)) : List Char :=
  [','].intercalate (texts.map fun text => lead ++ text)

/-- What may follow an item: a comma, or what follows the last one. -/
def Follows (tail after : List Char) : Prop :=
  after = tail ∨ ∃ rest, after = ',' :: rest

theorem readSeparated_separated (comma : closing ≠ ',')
    (ends : skipSpace tail = closing :: rest)
    {written : List (List Char × Item)} (nonempty : written ≠ [])
    (reads : ∀ item ∈ written, ∀ after, Follows tail after →
      read (lead ++ (item.1 ++ after)) = some (item.2, after))
    {count : Nat} (enough : written.length ≤ count) :
    readSeparated read closing count
        (separated lead (written.map Prod.fst) ++ tail)
      = some (written.map Prod.snd, rest) := by
  induction written generalizing count with
  | nil => exact absurd rfl nonempty
  | cons item others inductionHypothesis =>
      obtain ⟨fewer, rfl⟩ := Nat.exists_eq_succ_of_ne_zero
        (Nat.ne_of_gt (Nat.lt_of_lt_of_le (Nat.succ_pos _) enough))
      cases others with
      | nil =>
          have here := reads item List.mem_cons_self tail (.inl rfl)
          simp [separated, readSeparated, here, ends]
      | cons next others =>
          have later := inductionHypothesis (by simp)
            (fun other member => reads other (List.mem_cons_of_mem _ member))
            (Nat.le_of_succ_le_succ enough)
          have here := reads item List.mem_cons_self
            (',' :: (separated lead ((next :: others).map Prod.fst) ++ tail))
            (.inr ⟨_, rfl⟩)
          have split : separated lead ((item :: next :: others).map Prod.fst)
              ++ tail
            = lead ++ (item.1 ++ (',' :: (separated lead
                ((next :: others).map Prod.fst) ++ tail))) := by
            simp [separated]
          rw [split, readSeparated, here]
          simp only [Option.bind_eq_bind, Option.bind_some]
          rw [skipSpace_cons (by decide)]
          simp only [if_neg comma.symm, if_true]
          rw [later]
          rfl

theorem length_le_separated {texts : List (List Char)}
    (nonempty : ∀ text ∈ texts, text ≠ []) :
    texts.length ≤ (separated lead texts).length := by
  induction texts with
  | nil => simp
  | cons text others inductionHypothesis =>
      have some_character : 0 < text.length :=
        List.length_pos_iff.mpr (nonempty text List.mem_cons_self)
      cases others with
      | nil =>
          simp only [separated, List.map_cons, List.map_nil,
            List.intercalate_singleton, List.length_append, List.length_cons,
            List.length_nil]
          omega
      | cons next others =>
          have fewer := inductionHypothesis fun other member =>
            nonempty other (List.mem_cons_of_mem _ member)
          have split : separated lead (text :: next :: others)
              = lead ++ text ++ ',' :: separated lead (next :: others) := by
            simp [separated]
          rw [split]
          simp only [List.length_append, List.length_cons] at fewer ⊢
          omega

theorem length_le_of_mem_separated {texts : List (List Char)}
    {text : List Char} (held : text ∈ texts) :
    text.length ≤ (separated lead texts).length := by
  induction texts with
  | nil => cases held
  | cons first others inductionHypothesis =>
      have split : ∃ after, separated lead (first :: others)
          = lead ++ first ++ after
            ∧ (others ≠ [] → after = ',' :: separated lead others) := by
        cases others with
        | nil => exact ⟨[], by simp [separated], by simp⟩
        | cons next others =>
            exact ⟨',' :: separated lead (next :: others),
              by simp [separated], fun _ => rfl⟩
      obtain ⟨after, split, later⟩ := split
      rw [split]
      rcases List.mem_cons.mp held with rfl | within
      · simp only [List.length_append]
        omega
      · have shorter := inductionHypothesis within
        rw [later (List.ne_nil_of_mem within)]
        simp only [List.length_append, List.length_cons]
        omega

/-- Separated items are read one after another, with what ends them. -/
theorem readContainer_separated (comma : closing ≠ ',')
    (ends : skipSpace tail = closing :: rest)
    {written : List (List Char × Item)} (nonempty : written ≠ [])
    (spaces : ∀ character ∈ lead, isSpace character = true)
    (starts : ∀ item ∈ written, ∃ first others, item.1 = first :: others
      ∧ isSpace first = false ∧ first ≠ closing)
    (reads : ∀ item ∈ written, ∀ after, Follows tail after →
      read (lead ++ (item.1 ++ after)) = some (item.2, after)) :
    readContainer read closing
        (separated lead (written.map Prod.fst) ++ tail)
      = some (written.map Prod.snd, rest) := by
  have enough : written.length
      ≤ (separated lead (written.map Prod.fst) ++ tail).length := by
    have texts := @length_le_separated lead (written.map Prod.fst) (by
      intro text member
      obtain ⟨item, held, rfl⟩ := List.mem_map.mp member
      obtain ⟨first, others, begins, -⟩ := starts item held
      simp [begins])
    rw [List.length_map] at texts
    rw [List.length_append]
    omega
  have begun : ∃ first others, skipSpace
      (separated lead (written.map Prod.fst) ++ tail) = first :: others
        ∧ first ≠ closing := by
    obtain ⟨item, rest, rfl⟩ := List.exists_cons_of_ne_nil nonempty
    obtain ⟨first, others, begins, visible, different⟩ :=
      starts item List.mem_cons_self
    have split : ∃ after, separated lead ((item :: rest).map Prod.fst) ++ tail
        = lead ++ (first :: after) := by
      cases rest with
      | nil => exact ⟨others ++ tail, by simp [separated, begins]⟩
      | cons next rest =>
          exact ⟨others ++ ',' :: (separated lead
            ((next :: rest).map Prod.fst) ++ tail), by
              simp [separated, begins]⟩
    obtain ⟨after, split⟩ := split
    refine ⟨first, after, ?_, different⟩
    rw [split, skipSpace_append spaces, skipSpace_cons visible]
  obtain ⟨first, others, begins, different⟩ := begun
  rw [readContainer, begins]
  simp only [if_neg different]
  exact readSeparated_separated comma ends nonempty reads enough

theorem readContainer_nothing (rest : List Char)
    (visible : isSpace closing = false) :
    readContainer read closing (closing :: rest) = some ([], rest) := by
  rw [readContainer, skipSpace_cons visible]
  simp

end Written

end JsonText

end Clerkenwell.Foundation
