import Clerkenwell.Codegen.RustNames

/-!
# Which spellings Rust admits

Each spelling is an identifier but for the names told here of it: `Self`, the
constants of a name that starts with a digit, and the field names that are
keywords the generator does not escape, or cannot.
-/

namespace Clerkenwell.Codegen

open Clerkenwell.Foundation

/-! ## Texts of letters, digits and underscores -/

section Texts

variable {text : String}

def isIdentifierCharacter (character : Char) : Bool :=
  character.isAlphanum || character == '_'

theorem stripPrefix_raw (text : String) :
    Text.stripPrefix ("r#" ++ text) "r#" = some text := by
  unfold Text.stripPrefix
  have raw : "r#".toList = ['r', '#'] := rfl
  simp [String.toList_append, raw, Text.stripPrefixChars]

theorem stripPrefix_raw_none
    (letters : ∀ character ∈ text.toList, isIdentifierCharacter character = true) :
    Text.stripPrefix text "r#" = none := by
  unfold Text.stripPrefix
  have raw : "r#".toList = ['r', '#'] := rfl
  rw [raw, Option.map_eq_none_iff]
  cases spelled : text.toList with
  | nil => rfl
  | cons first rest =>
      cases rest with
      | nil =>
          rw [Text.stripPrefixChars]
          split <;> rfl
      | cons second rest =>
          have letter := letters second (by simp [spelled])
          have other : second ≠ '#' := by
            rintro rfl
            exact absurd letter (by decide)
          simp [Text.stripPrefixChars, other]

/-- A text of letters, digits and `_` is admitted unless a digit starts it or it is a keyword. -/
theorem isRustIdentifier_iff {first : Char} {rest : List Char}
    (spelled : text.toList = first :: rest) (letter : first.isAlphanum = true)
    (letters : ∀ character ∈ rest, isIdentifierCharacter character = true) :
    isRustIdentifier text = true
      ↔ first.isDigit = false ∧ text ∉ strictKeywords ++ reservedKeywords := by
  have plain : Text.stripPrefix text "r#" = none := by
    apply stripPrefix_raw_none
    intro character within
    rw [spelled] at within
    rcases List.mem_cons.mp within with rfl | within
    · simp [isIdentifierCharacter, letter]
    · exact letters character within
  have started : (first.isAlpha || first == '_' && !rest.isEmpty) = true
      ↔ first.isDigit = false := by
    have apart : first.isDigit = true → first.isAlpha = false := by
      simp only [Char.isDigit, Char.isAlpha, Char.isUpper, Char.isLower,
        UInt32.le_iff_toNat_le, ge_iff_le, Bool.and_eq_true, decide_eq_true_eq,
        Bool.or_eq_false_iff, decide_eq_false_iff_not, Bool.and_eq_false_iff]
      change 48 ≤ first.val.toNat ∧ first.val.toNat ≤ 57 →
        ¬(65 ≤ first.val.toNat ∧ first.val.toNat ≤ 90)
          ∧ (¬97 ≤ first.val.toNat ∨ ¬first.val.toNat ≤ 122)
      omega
    have either : first.isAlpha = true ∨ first.isDigit = true := by
      simpa [Char.isAlphanum] using letter
    have other : first ≠ '_' := by
      rintro rfl
      exact absurd letter (by decide)
    rcases either with alpha | digit
    · have no_digit : first.isDigit = false := by
        by_contra digit
        rw [apart (Bool.of_not_eq_false digit)] at alpha
        cases alpha
      simp [alpha, no_digit]
    · simp [digit, apart digit, other]
  unfold isRustIdentifier
  rw [plain]
  dsimp only
  unfold isIdentifierText
  rw [spelled]
  simp only [Bool.and_eq_true, Bool.not_eq_true', List.all_eq_true,
    List.contains_eq_mem, decide_eq_false_iff_not]
  rw [started]
  constructor
  · rintro ⟨⟨digit, -⟩, keyword⟩
    exact ⟨digit, keyword⟩
  · rintro ⟨digit, keyword⟩
    exact ⟨⟨digit, fun character within => by
      simpa [isIdentifierCharacter] using letters character within⟩, keyword⟩

theorem isRustIdentifier_raw_iff {first : Char} {rest : List Char}
    (spelled : text.toList = first :: rest) (letter : first.isAlpha = true)
    (letters : ∀ character ∈ rest, isIdentifierCharacter character = true) :
    isRustIdentifier ("r#" ++ text) = true ↔ text ∉ neverRaw := by
  have identifier : isIdentifierText text = true := by
    unfold isIdentifierText
    rw [spelled]
    simp only [letter, Bool.true_or, Bool.true_and, List.all_eq_true]
    exact letters
  unfold isRustIdentifier
  rw [stripPrefix_raw]
  simp [identifier]

end Texts

/-! ## Types, variants and helpers -/

section Types

variable {text : String}

theorem IsTypeName.admitted_iff (named : IsTypeName text) :
    isRustIdentifier text = true ↔ text ≠ "Self" := by
  obtain ⟨first, rest, spelled, upper, letters⟩ := named
  have letter : first.isAlphanum = true := by
    simp [Char.isAlphanum, Char.isAlpha, upper]
  rw [isRustIdentifier_iff spelled letter fun character within => by
    simp [isIdentifierCharacter, letters character within]]
  -- Of the keywords, `Self` alone starts with a capital.
  have lower : (strictKeywords ++ reservedKeywords).all (fun keyword =>
      keyword == "Self" || keyword.toList.head?.any Char.isLower) = true := by
    decide
  have small : first.isLower = false := by
    simpa using Char.not_isLower_of_isUpper upper
  have no_digit : first.isDigit = false := by
    simp only [Char.isDigit, Char.isUpper, UInt32.le_iff_toNat_le, ge_iff_le,
      decide_eq_true_eq, Bool.and_eq_false_iff, decide_eq_false_iff_not] at *
    change 65 ≤ first.val.toNat ∧ first.val.toNat ≤ 90 at upper
    change ¬48 ≤ first.val.toNat ∨ ¬first.val.toNat ≤ 57
    omega
  constructor
  · rintro ⟨-, keyword⟩ rfl
    exact keyword (by decide)
  · intro other
    refine ⟨no_digit, fun keyword => ?_⟩
    have started := List.all_eq_true.mp lower text keyword
    simp [spelled, other, small] at started

theorem pascal_eq_self_iff (value : String) :
    pascalIdentifier value = "Self" ↔ capitalised value = "Self" := by
  rw [pascalIdentifier_eq, valued]
  split
  · next empty =>
    rw [String.isEmpty_iff.mp empty]
    decide
  · split
    · next digit =>
      constructor
      · intro same
        have value : "Value".toList = 'V' :: ['a', 'l', 'u', 'e'] := rfl
        have starts := congrArg (fun text => text.toList.head?) same
        simp [String.toList_append, value] at starts
      · intro same
        rw [same] at digit
        exact absurd digit (by decide)
    · rfl

theorem admitted_pascal_iff (value : String) :
    isRustIdentifier (pascalIdentifier value) = true
      ↔ capitalised value ≠ "Self" := by
  rw [(isTypeName_pascalIdentifier value).admitted_iff, Ne, pascal_eq_self_iff]

/-- A type name before another is no keyword, which has one capital at most. -/
theorem IsTypeName.append_ne_self {left right : String}
    (first : IsTypeName left) (second : IsTypeName right) :
    left ++ right ≠ "Self" := by
  obtain ⟨start, rest, spelled, upper, -⟩ := first
  obtain ⟨other, later, also, capital, -⟩ := second
  intro same
  have characters := congrArg String.toList same
  rw [String.toList_append, spelled, also, List.cons_append] at characters
  have tail : rest ++ other :: later = ['e', 'l', 'f'] :=
    (List.cons.inj (characters.trans (rfl : _ = ['S', 'e', 'l', 'f']))).2
  have within : other ∈ ['e', 'l', 'f'] := by
    rw [← tail]
    simp
  have none_capital : ['e', 'l', 'f'].all (fun letter => !letter.isUpper)
      = true := by decide
  have small := List.all_eq_true.mp none_capital other within
  rw [capital] at small
  cases small

theorem admitted_helper (owner property : String) :
    isRustIdentifier (rustPropertyEnumName owner property) = true := by
  have owned := isTypeName_pascalIdentifier owner
  have named := isTypeName_pascalIdentifier property
  exact (owned.append named.isAlphanum).admitted_iff.mpr
    (owned.append_ne_self named)

theorem isTypeName_constraints : IsTypeName "Constraints" :=
  ⟨'C', ['o', 'n', 's', 't', 'r', 'a', 'i', 'n', 't', 's'], rfl, by decide,
    List.all_eq_true.mp (by decide)⟩

theorem rustRecordConstraintsName_eq (name : String) :
    rustRecordConstraintsName name = pascalIdentifier name ++ "Constraints" :=
  rfl

theorem admitted_constraints (name : String) :
    isRustIdentifier (rustRecordConstraintsName name) = true := by
  have owned := isTypeName_pascalIdentifier name
  rw [rustRecordConstraintsName_eq]
  exact (owned.append isTypeName_constraints.isAlphanum).admitted_iff.mpr
    (owned.append_ne_self isTypeName_constraints)

end Types

/-! ## Words joined -/

section Joined

variable {words : List (List Char)}

theorem mem_intercalate {character : Char}
    (within : character ∈ ['_'].intercalate words) :
    character = '_' ∨ ∃ word ∈ words, character ∈ word := by
  induction words with
  | nil => simp at within
  | cons word rest inductionHypothesis =>
      by_cases last : rest = []
      · subst last
        exact Or.inr ⟨word, List.mem_cons_self, by simpa using within⟩
      · rw [List.intercalate_cons_of_ne_nil last] at within
        rcases List.mem_append.mp within with within | within
        · rcases List.mem_append.mp within with within | within
          · exact Or.inr ⟨word, List.mem_cons_self, within⟩
          · exact Or.inl (List.mem_singleton.mp within)
        · rcases inductionHypothesis within with same | ⟨other, among, held⟩
          · exact Or.inl same
          · exact Or.inr ⟨other, List.mem_cons_of_mem word among, held⟩

theorem head_intercalate {word : List Char} (rest : List (List Char))
    (nonempty : word ≠ []) :
    (['_'].intercalate (word :: rest)).head? = word.head? := by
  by_cases last : rest = []
  · subst last
    simp
  · rw [List.intercalate_cons_of_ne_nil last]
    cases word with
    | nil => exact absurd rfl nonempty
    | cons first word => rfl

/-- Words joined into a text with no underscore are one word. -/
theorem eq_singleton_of_intercalate {text : List Char} (nonempty : text ≠ [])
    (plain : '_' ∉ text) (joined : ['_'].intercalate words = text) :
    words = [text] := by
  cases words with
  | nil => exact absurd joined.symm (by simpa using nonempty)
  | cons word rest =>
      by_cases last : rest = []
      · subst last
        simpa using joined
      · rw [List.intercalate_cons_of_ne_nil last] at joined
        exact absurd (joined ▸ by simp) plain

end Joined

/-! ## Constants -/

section Constants

/-- What is spelled of a name's words in one case. -/
def joinedWords (spell : Char → Char) (value : String) : List Char :=
  ['_'].intercalate ((words value).map fun word => word.toList.map spell)

theorem isIdentifierCharacter_of_mem_joinedWords {spell : Char → Char}
    (keeps : ∀ character, character.isAlphanum = true →
      (spell character).isAlphanum = true)
    {value : String} {character : Char}
    (within : character ∈ joinedWords spell value) :
    isIdentifierCharacter character = true := by
  rcases mem_intercalate within with rfl | ⟨spelled, among, held⟩
  · decide
  · obtain ⟨word, whose, rfl⟩ := List.mem_map.mp among
    obtain ⟨letter, original, rfl⟩ := List.mem_map.mp held
    have kept := keeps letter ((isWord_of_mem_words whose).2 letter original)
    simp [isIdentifierCharacter, kept]

/-- The words of a name, joined, start as the first letter of the name does. -/
theorem head_joinedWords (spell : Char → Char) (value : String) :
    (joinedWords spell value).head? = (firstLetter value).map spell := by
  rw [← head_words, joinedWords]
  cases spelled : words value with
  | nil => rfl
  | cons word rest =>
      have whole := isWord_of_mem_words (spelled ▸ List.mem_cons_self)
      rw [List.map_cons, head_intercalate _ (by simpa using whole.1)]
      simp

theorem joinedWords_eq_nil_iff (spell : Char → Char) (value : String) :
    joinedWords spell value = [] ↔ words value = [] := by
  constructor
  · intro empty
    have head := head_joinedWords spell value
    rw [empty, ← head_words] at head
    cases spelled : words value with
    | nil => rfl
    | cons word rest =>
        have whole := isWord_of_mem_words (spelled ▸ List.mem_cons_self)
        simp [spelled] at head
        exact absurd (by simpa using head) whole.1
  · intro none_
    rw [joinedWords, none_]
    rfl

theorem isAlphanum_of_firstLetter {value : String} {first : Char}
    (held : firstLetter value = some first) : first.isAlphanum = true := by
  simpa using List.find?_some held

theorem constantName_toList (value : String) :
    (constantName value).toList
      = if words value = [] then "VALUE".toList
        else joinedWords Char.toUpper value := by
  unfold constantName
  by_cases none_ : words value = []
  · simp [none_]
  · have listed : (words value).isEmpty = false := by simpa using none_
    rw [listed, if_neg none_]
    simp [joinedWords, asciiUppercase, List.map_map, Function.comp_def]

/-- Nothing a constant's suffix may hold is refused of an identifier. -/
def IsSuffix (suffix : String) : Prop :=
  suffix.toList.all isIdentifierCharacter = true

theorem nameConstantIdentifier_toList (value suffix : String) :
    (nameConstantIdentifier value suffix).toList
      = (constantName value).toList ++ '_' :: suffix.toList := by
  have same : nameConstantIdentifier value suffix
      = constantName value ++ "_" ++ suffix := rfl
  rw [same, String.toList_append, String.toList_append]
  simp

theorem isDigit_toUpper (character : Char) :
    character.toUpper.isDigit = character.isDigit := by
  by_cases lower : character.isLower = true
  · have upper : character.toUpper.isUpper = true := by
      simp [Char.isAlpha, lower]
    have apart : ∀ letter : Char, letter.isAlpha = true →
        letter.isDigit = false := by
      intro letter alpha
      simp only [Char.isDigit, Char.isAlpha, Char.isUpper, Char.isLower,
        UInt32.le_iff_toNat_le, ge_iff_le, Bool.or_eq_true, Bool.and_eq_true,
        decide_eq_true_eq, Bool.and_eq_false_iff, decide_eq_false_iff_not] at *
      change (65 ≤ letter.val.toNat ∧ letter.val.toNat ≤ 90)
        ∨ 97 ≤ letter.val.toNat ∧ letter.val.toNat ≤ 122 at alpha
      change ¬48 ≤ letter.val.toNat ∨ ¬letter.val.toNat ≤ 57
      omega
    rw [apart _ (by simp [Char.isAlpha, lower]),
      apart _ (by simp [Char.isAlpha, lower])]
  · rw [Char.toUpper_eq_of_not_isLower lower]

theorem admitted_constant_iff (value : String) {suffix : String}
    (fixed : IsSuffix suffix) :
    isRustIdentifier (nameConstantIdentifier value suffix) = true
      ↔ (firstLetter value).all (!·.isDigit) = true := by
  have spelled := nameConstantIdentifier_toList value suffix
  have later := List.all_eq_true.mp fixed
  -- No keyword has an underscore.
  have plain : (strictKeywords ++ reservedKeywords).all (fun keyword =>
      !keyword.toList.contains '_') = true := by decide
  have other : nameConstantIdentifier value suffix
      ∉ strictKeywords ++ reservedKeywords := by
    intro keyword
    have none_ := List.all_eq_true.mp plain _ keyword
    simp [spelled] at none_
  rw [constantName_toList] at spelled
  split at spelled
  · next none_ =>
    have unnamed : firstLetter value = none := by
      rw [← head_words, none_]
      rfl
    have value_ : "VALUE".toList = 'V' :: ['A', 'L', 'U', 'E'] := rfl
    rw [value_, List.cons_append] at spelled
    rw [isRustIdentifier_iff spelled (by decide), unnamed]
    · simp [other]
    · intro character within
      rcases List.mem_append.mp within with within | within
      · have letters : ['A', 'L', 'U', 'E'].all isIdentifierCharacter = true := by
          decide
        exact List.all_eq_true.mp letters character within
      · rcases List.mem_cons.mp within with rfl | within
        · decide
        · exact later character within
  · next named =>
    have head := head_joinedWords Char.toUpper value
    cases joined : joinedWords Char.toUpper value with
    | nil => exact absurd ((joinedWords_eq_nil_iff _ _).mp joined) named
    | cons first rest =>
        rw [joined, List.head?_cons] at head
        obtain ⟨letter, held, rfl⟩ := Option.map_eq_some_iff.mp head.symm
        have alphanumeric := isAlphanum_of_firstLetter held
        rw [joined, List.cons_append] at spelled
        rw [isRustIdentifier_iff spelled (by rw [isAlphanum_toUpper, alphanumeric]),
          held, isDigit_toUpper]
        · simp [other]
        · intro character within
          rcases List.mem_append.mp within with within | within
          · refine isIdentifierCharacter_of_mem_joinedWords
              (fun letter alphanumeric => ?_)
              (joined ▸ List.mem_cons_of_mem _ within)
            rw [isAlphanum_toUpper, alphanumeric]
          · rcases List.mem_cons.mp within with rfl | within
            · decide
            · exact later character within

end Constants

/-! ## Fields -/

section Fields

/-- The keywords the generator does not escape, or that no escape makes names. -/
def unescapedKeywords : List String :=
  ["abstract", "async", "await", "become", "box", "crate", "do", "dyn", "final",
    "macro", "override", "priv", "self", "super", "try", "typeof", "unsized",
    "virtual", "yield"]

/-- A field name as it is before keywords are escaped. -/
def unescapedField (value : String) : String :=
  let joined := "_".intercalate ((words value).map asciiLowercase)
  let candidate := if joined.isEmpty then "value" else joined
  if candidate.toList.head?.any Char.isDigit then s!"value_{candidate}"
  else candidate

theorem rustFieldIdentifier_eq (value : String) :
    rustFieldIdentifier value
      = if rustKeywords.contains (unescapedField value) then
          "r#" ++ unescapedField value
        else unescapedField value :=
  rfl

theorem isAlphanum_toLower {character : Char}
    (letter : character.isAlphanum = true) :
    character.toLower.isAlphanum = true := by
  by_cases upper : character.isUpper = true
  · have lower : character.toLower.isLower = true := by
      simp [Char.isAlpha, upper]
    simp [Char.isAlphanum, Char.isAlpha, upper]
  · rwa [Char.toLower_eq_of_not_isUpper upper]

theorem isLower_toLower {character : Char} (letter : character.isAlphanum = true)
    (no_digit : character.toLower.isDigit = false) :
    character.toLower.isLower = true := by
  have alphanumeric := isAlphanum_toLower letter
  rw [Char.isAlphanum, no_digit, Bool.or_false] at alphanumeric
  simpa using alphanumeric

theorem joined_lowercase_toList (value : String) :
    ("_".intercalate ((words value).map asciiLowercase)).toList
      = joinedWords Char.toLower value := by
  simp [joinedWords, asciiLowercase, List.map_map, Function.comp_def]

/-- A field name is the name's words, or starts with the generator's own. -/
theorem unescapedField_cases (value : String) :
    unescapedField value = "value"
      ∨ (∃ rest, (unescapedField value).toList = "value_".toList ++ rest
          ∧ ∀ character ∈ rest, isIdentifierCharacter character = true)
      ∨ (unescapedField value).toList = joinedWords Char.toLower value
        ∧ ∃ first rest, joinedWords Char.toLower value = first :: rest
          ∧ first.isLower = true := by
  have letters : ∀ character ∈ joinedWords Char.toLower value,
      isIdentifierCharacter character = true := fun character within =>
    isIdentifierCharacter_of_mem_joinedWords
      (fun _ letter => isAlphanum_toLower letter) within
  have spelled := joined_lowercase_toList value
  unfold unescapedField
  dsimp only
  cases joined : joinedWords Char.toLower value with
  | nil =>
      rw [joined] at spelled
      rw [String.toList_eq_nil_iff.mp spelled]
      exact Or.inl (by decide)
  | cons first rest =>
      rw [joined] at spelled
      have named : ("_".intercalate ((words value).map asciiLowercase)).isEmpty
          = false := by
        rw [← Bool.not_eq_true, String.isEmpty_iff, ← String.toList_eq_nil_iff,
          spelled]
        simp
      rw [named, if_neg Bool.false_ne_true, spelled, List.head?_cons]
      right
      by_cases digit : first.isDigit = true
      · left
        rw [if_pos (by simpa using digit)]
        refine ⟨first :: rest, ?_, joined ▸ letters⟩
        have same : ∀ text : String, s!"value_{text}" = "value_" ++ text :=
          fun _ => rfl
        rw [same, String.toList_append, spelled]
      · right
        rw [if_neg (by simpa using digit)]
        refine ⟨spelled, first, rest, rfl, ?_⟩
        have head := head_joinedWords Char.toLower value
        rw [joined, List.head?_cons] at head
        obtain ⟨letter, held, rfl⟩ := Option.map_eq_some_iff.mp head.symm
        exact isLower_toLower (isAlphanum_of_firstLetter held)
          (by simpa using digit)

/-- A field name before escaping starts with a small letter. -/
theorem unescapedField_spelled (value : String) :
    ∃ first rest, (unescapedField value).toList = first :: rest
      ∧ first.isLower = true
      ∧ ∀ character ∈ rest, isIdentifierCharacter character = true := by
  rcases unescapedField_cases value with same | ⟨rest, spelled, letters⟩
    | ⟨spelled, first, rest, joined, lower⟩
  · rw [same]
    exact ⟨'v', ['a', 'l', 'u', 'e'], rfl, by decide,
      List.all_eq_true.mp (by decide)⟩
  · refine ⟨'v', ['a', 'l', 'u', 'e', '_'] ++ rest, spelled, by decide, ?_⟩
    intro character within
    rcases List.mem_append.mp within with within | within
    · have own : ['a', 'l', 'u', 'e', '_'].all isIdentifierCharacter = true := by
        decide
      exact List.all_eq_true.mp own character within
    · exact letters character within
  · refine ⟨first, rest, spelled.trans joined, lower, ?_⟩
    intro character within
    exact isIdentifierCharacter_of_mem_joinedWords
      (fun _ letter => isAlphanum_toLower letter)
      (joined ▸ List.mem_cons_of_mem first within)

/-- A field name is an unescaped keyword where the name's one word is. -/
theorem unescapedField_mem_iff (value : String) :
    unescapedField value ∈ unescapedKeywords
      ↔ ∃ keyword ∈ unescapedKeywords,
          (words value).map asciiLowercase = [keyword] := by
  have plain : unescapedKeywords.all (fun keyword =>
      !keyword.toList.contains '_' && !keyword.isEmpty) = true := by decide
  constructor
  · intro keyword
    refine ⟨unescapedField value, keyword, ?_⟩
    have bare := List.all_eq_true.mp plain _ keyword
    rw [Bool.and_eq_true] at bare
    rcases unescapedField_cases value with same | ⟨rest, spelled, -⟩
      | ⟨spelled, -⟩
    · rw [same] at keyword
      exact absurd keyword (by decide)
    · have own : "value_".toList = ['v', 'a', 'l', 'u', 'e', '_'] := rfl
      simp [spelled, own] at bare
    · have single := eq_singleton_of_intercalate
        (by simpa [String.toList_eq_nil_iff] using bare.2)
        (by simpa using bare.1) spelled.symm
      apply List.map_injective_iff.mpr (fun _ _ => String.toList_injective)
      rw [List.map_map, List.map_singleton, ← single]
      exact List.map_congr_left fun word _ => by simp [asciiLowercase]
  · rintro ⟨keyword, within, single⟩
    have bare := List.all_eq_true.mp plain _ within
    have head : keyword.toList.head?.any Char.isDigit = false := by
      have started : unescapedKeywords.all (fun keyword =>
          !keyword.toList.head?.any Char.isDigit) = true := by decide
      simpa using List.all_eq_true.mp started _ within
    have empty : keyword.isEmpty = false := by
      rw [Bool.and_eq_true] at bare
      simpa using bare.2
    have same : unescapedField value = keyword := by
      unfold unescapedField
      rw [single, String.intercalate_singleton]
      simp [head, empty]
    rwa [same]

theorem admitted_field_iff (value : String) :
    isRustIdentifier (rustFieldIdentifier value) = true
      ↔ ∀ keyword ∈ unescapedKeywords,
          (words value).map asciiLowercase ≠ [keyword] := by
  have refused : (∀ keyword ∈ unescapedKeywords,
      (words value).map asciiLowercase ≠ [keyword])
        ↔ unescapedField value ∉ unescapedKeywords := by
    rw [unescapedField_mem_iff]
    push Not
    rfl
  rw [refused, rustFieldIdentifier_eq]
  obtain ⟨first, rest, spelled, lower, letters⟩ := unescapedField_spelled value
  have alpha : first.isAlpha = true := by simp [Char.isAlpha, lower]
  have small : unescapedField value ≠ "Self" := by
    intro same
    rw [same] at spelled
    obtain ⟨rfl, -⟩ := List.cons.inj (spelled.symm.trans
      (rfl : "Self".toList = ['S', 'e', 'l', 'f']))
    exact absurd lower (by decide)
  split
  · next escaped =>
    rw [isRustIdentifier_raw_iff spelled alpha letters]
    have raw : rustKeywords.all (fun keyword => keyword == "Self"
        || neverRaw.contains keyword == unescapedKeywords.contains keyword)
          = true := by decide
    have alike := List.all_eq_true.mp raw _ (List.contains_iff_mem.mp escaped)
    simp only [Bool.or_eq_true, beq_iff_eq, small, false_or] at alike
    rw [← List.contains_iff_mem, alike, List.contains_iff_mem]
  · next plain =>
    have no_digit : first.isDigit = false := by
      simp only [Char.isDigit, Char.isLower, UInt32.le_iff_toNat_le, ge_iff_le,
        Bool.and_eq_true, decide_eq_true_eq, Bool.and_eq_false_iff,
        decide_eq_false_iff_not] at *
      change 97 ≤ first.val.toNat ∧ first.val.toNat ≤ 122 at lower
      change ¬48 ≤ first.val.toNat ∨ ¬first.val.toNat ≤ 57
      omega
    rw [isRustIdentifier_iff spelled (by simp [Char.isAlphanum, alpha]) letters]
    have missing : (strictKeywords ++ reservedKeywords).all (fun keyword =>
        rustKeywords.contains keyword || unescapedKeywords.contains keyword)
          = true := by decide
    have known : unescapedKeywords.all (fun keyword =>
        (strictKeywords ++ reservedKeywords).contains keyword) = true := by decide
    have same : unescapedField value ∈ strictKeywords ++ reservedKeywords
        ↔ unescapedField value ∈ unescapedKeywords := by
      constructor
      · intro keyword
        have either := List.all_eq_true.mp missing _ keyword
        rw [Bool.or_eq_true] at either
        exact List.contains_iff_mem.mp (either.resolve_left plain)
      · intro keyword
        exact List.contains_iff_mem.mp (List.all_eq_true.mp known _ keyword)
    rw [same]
    simp [no_digit]

end Fields

/-! ## Transport enums -/

section Transport

/-- No transport enum starts or goes on as the generator would have a name do. -/
theorem transportEnums_plain {text : String} (transport : text ∈ transportEnums) :
    ¬"Value".toList <:+: text.toList
      ∧ ∀ character ∈ text.toList, character.isDigit = false := by
  have plain : transportEnums.all (fun text =>
      decide ¬"Value".toList <:+: text.toList
        && text.toList.all fun character => !character.isDigit) = true := by
    decide
  have both := List.all_eq_true.mp plain _ transport
  rw [Bool.and_eq_true, decide_eq_true_eq, List.all_eq_true] at both
  exact ⟨both.1, fun character within => by simpa using both.2 character within⟩

theorem valued_cases (spelled : String) :
    (∃ rest, (valued spelled).toList = "Value".toList ++ rest)
        ∧ (spelled = "" ∨ spelled.toList.head?.any Char.isDigit = true)
      ∨ valued spelled = spelled ∧ spelled ≠ "" := by
  unfold valued
  split
  · next empty =>
    exact Or.inl ⟨⟨[], rfl⟩, Or.inl (String.isEmpty_iff.mp empty)⟩
  · next named =>
    split
    · next digit =>
      refine Or.inl ⟨⟨spelled.toList, ?_⟩, Or.inr digit⟩
      rw [String.toList_append]
    · exact Or.inr ⟨rfl, fun empty => named (by simp [empty])⟩

/-- What a transport enum is made of is spelled as it is. -/
theorem valued_of_part {spelled text : String} (transport : text ∈ transportEnums)
    (part : spelled.toList <:+: text.toList) (named : spelled ≠ "") :
    valued spelled = spelled := by
  rcases valued_cases spelled with ⟨-, empty | digit⟩ | ⟨same, -⟩
  · exact absurd empty named
  · cases held : spelled.toList with
    | nil => simp [held] at digit
    | cons first rest =>
        have none_ := (transportEnums_plain transport).2 first
          (part.subset (by simp [held]))
        simp [held, none_] at digit
  · exact same

theorem eq_of_valued_part {spelled text : String}
    (transport : text ∈ transportEnums)
    (part : (valued spelled).toList <:+: text.toList) :
    valued spelled = spelled ∧ spelled ≠ "" := by
  rcases valued_cases spelled with ⟨⟨rest, started⟩, -⟩ | same
  · refine absurd (List.IsInfix.trans ?_ part) (transportEnums_plain transport).1
    rw [started]
    exact (List.prefix_append _ _).isInfix
  · exact same

theorem pascal_transport_iff (name : String) :
    pascalIdentifier name ∈ transportEnums
      ↔ capitalised name ∈ transportEnums := by
  rw [pascalIdentifier_eq]
  constructor
  · intro transport
    rwa [(eq_of_valued_part transport List.infix_rfl).1] at transport
  · intro transport
    have named : capitalised name ≠ "" := by
      intro empty
      rw [empty] at transport
      exact absurd transport (by decide)
    rwa [valued_of_part transport List.infix_rfl named]

theorem helper_transport_iff (owner property : String) :
    rustPropertyEnumName owner property ∈ transportEnums
      ↔ capitalised owner ≠ "" ∧ capitalised property ≠ ""
        ∧ capitalised owner ++ capitalised property ∈ transportEnums := by
  unfold rustPropertyEnumName
  rw [pascalIdentifier_eq, pascalIdentifier_eq]
  constructor
  · intro transport
    have owned := @eq_of_valued_part (capitalised owner) _ transport
      ⟨[], (valued (capitalised property)).toList, by simp⟩
    have named := @eq_of_valued_part (capitalised property) _ transport
      ⟨(valued (capitalised owner)).toList, [], by simp⟩
    rw [owned.1, named.1] at transport
    exact ⟨owned.2, named.2, transport⟩
  · rintro ⟨owned, named, transport⟩
    rw [@valued_of_part (capitalised owner) _ transport
        ⟨[], (capitalised property).toList, by simp⟩ owned,
      @valued_of_part (capitalised property) _ transport
        ⟨(capitalised owner).toList, [], by simp⟩ named]
    exact transport

theorem constraints_not_transport (name : String) :
    rustRecordConstraintsName name ∉ transportEnums := by
  intro transport
  have endings : transportEnums.all (fun text =>
      decide ¬"Constraints".toList <:+ text.toList) = true := by decide
  have other := List.all_eq_true.mp endings _ transport
  rw [decide_eq_true_eq, rustRecordConstraintsName_eq,
    String.toList_append] at other
  exact other (List.suffix_append _ _)

end Transport

/-! ## Every spelling -/

namespace Spelling

/-- Whether a name is one that its spelling makes an identifier of. -/
def Admissible : Spelling → Prop
  | .own _ | .constraints _ | .helper _ _ => True
  | .pascal name => capitalised name ≠ "Self"
  | .field name => ∀ keyword ∈ unescapedKeywords,
      (words name).map asciiLowercase ≠ [keyword]
  | .constant name _ => (firstLetter name).all (!·.isDigit) = true

/-- Whether what the generator adds to a name is of an identifier itself. -/
def Fixed : Spelling → Prop
  | .own identifier => isRustIdentifier identifier = true
  | .constant _ suffix => IsSuffix suffix
  | _ => True

theorem admitted_iff {spelling : Spelling} (fixed : spelling.Fixed) :
    isRustIdentifier spelling.identifier = true ↔ spelling.Admissible := by
  cases spelling with
  | own identifier => exact iff_of_true fixed trivial
  | pascal name => exact admitted_pascal_iff name
  | constraints name => exact iff_of_true (admitted_constraints name) trivial
  | helper owner property =>
      exact iff_of_true (admitted_helper owner property) trivial
  | field name => exact admitted_field_iff name
  | constant name suffix => exact admitted_constant_iff name fixed

/-- Whether what the definition names is spelled as a transport enum is. -/
def SpellsTransport : Spelling → Prop
  | .pascal name => capitalised name ∈ transportEnums
  | .helper owner property =>
      capitalised owner ≠ "" ∧ capitalised property ≠ ""
        ∧ capitalised owner ++ capitalised property ∈ transportEnums
  | _ => False

end Spelling

end Clerkenwell.Codegen
