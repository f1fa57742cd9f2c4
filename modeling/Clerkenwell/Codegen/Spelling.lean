import Clerkenwell.Codegen.OutputNames
import Mathlib

/-!
# How generated identifiers are spelled

The words of a name are its letters and digits; what is told here of each
spelling is which characters it has and which one it starts with.
-/

namespace Clerkenwell.Codegen

/-! ## Words -/

section Words

variable {current text : List Char} {word : String}

/-- A word is not empty, and all letters and digits. -/
def IsWord (word : String) : Prop :=
  word.toList ≠ [] ∧ ∀ character ∈ word.toList, character.isAlphanum = true

theorem isWord_of_mem_wordsFrom
    (letters : ∀ character ∈ current, character.isAlphanum = true)
    (within : word ∈ wordsFrom current text) : IsWord word := by
  fun_induction wordsFrom current text with
  | case1 current empty => cases within
  | case2 current nonempty =>
      obtain rfl := List.mem_singleton.mp within
      exact ⟨by simpa using nonempty, by simpa using letters⟩
  | case3 current character rest other empty inductionHypothesis =>
      exact inductionHypothesis (by simp) within
  | case4 current character rest other nonempty inductionHypothesis =>
      rcases List.mem_cons.mp within with rfl | within
      · exact ⟨by simpa using nonempty, by simpa using letters⟩
      · exact inductionHypothesis (by simp) within
  | case5 current character rest letter whole boundary camel inductionHypothesis =>
      rcases List.mem_cons.mp within with rfl | within
      · refine ⟨by simp [whole], ?_⟩
        simp only [whole, String.toList_ofList, List.mem_append,
          List.mem_singleton]
        rintro other (among | rfl)
        · exact letters other among
        · simpa using letter
      · exact inductionHypothesis (by simp) within
  | case6 current character rest letter whole boundary plain
      inductionHypothesis =>
      refine inductionHypothesis ?_ within
      simp only [whole, List.mem_append, List.mem_singleton]
      rintro other (among | rfl)
      · exact letters other among
      · simpa using letter

theorem isWord_of_mem_words {value : String} (within : word ∈ words value) :
    IsWord word :=
  isWord_of_mem_wordsFrom (by simp) within

/-- The first letter or digit of a text starts its first word. -/
theorem head_wordsFrom :
    (wordsFrom current text).head?.bind (fun word => word.toList.head?)
      = (current ++ text.filter Char.isAlphanum).head? := by
  fun_induction wordsFrom current text with
  | case1 current empty => simp_all
  | case2 current nonempty => simp
  | case3 current character rest other empty inductionHypothesis =>
      rw [inductionHypothesis]
      simp_all
  | case4 current character rest other nonempty inductionHypothesis =>
      cases current <;> simp_all
  | case5 current character rest letter whole boundary camel inductionHypothesis =>
      cases current <;> simp_all [whole]
  | case6 current character rest letter whole boundary plain
      inductionHypothesis =>
      rw [inductionHypothesis]
      simp_all [whole]

/-- The first letter or digit of a name. -/
def firstLetter (value : String) : Option Char :=
  value.toList.find? Char.isAlphanum

theorem head_words (value : String) :
    (words value).head?.bind (fun word => word.toList.head?)
      = firstLetter value := by
  unfold words firstLetter
  rw [head_wordsFrom, List.nil_append, List.head?_filter]

end Words

/-! ## Type names -/

section Types

/-- The letters and digits of a text, those that start a run in upper case. -/
def capitalisedFrom : Bool → List Char → List Char
  | _, [] => []
  | starts, character :: rest =>
      if character.isAlphanum then
        (if starts then character.toUpper else character)
          :: capitalisedFrom false rest
      else capitalisedFrom true rest

def capitalised (value : String) : String :=
  String.ofList (capitalisedFrom true value.toList)

/-- Before an upper-case letter, it is all one whether a run starts. -/
theorem capitalisedFrom_upper {text : List Char}
    (upper : text.head?.any Char.isUpper = true) :
    capitalisedFrom true text = capitalisedFrom false text := by
  cases text with
  | nil => rfl
  | cons character rest =>
      have capital : character.isUpper = true := by simpa using upper
      have same := Char.toUpper_eq_of_not_isLower
        (Char.not_isLower_of_isUpper capital)
      simp [capitalisedFrom, same]

theorem flatMap_wordsFrom (current text : List Char) :
    ((wordsFrom current text).map upperFirst).flatMap String.toList
      = (upperFirst (String.ofList current)).toList
        ++ capitalisedFrom current.isEmpty text := by
  fun_induction wordsFrom current text with
  | case1 current empty => simp_all [upperFirst, capitalisedFrom]
  | case2 current nonempty => simp [capitalisedFrom]
  | case3 current character rest other empty inductionHypothesis =>
      rw [inductionHypothesis]
      simp_all [capitalisedFrom]
  | case4 current character rest other nonempty inductionHypothesis =>
      rw [List.map_cons, List.flatMap_cons, inductionHypothesis]
      simp_all [upperFirst, capitalisedFrom]
  | case5 current character rest letter whole boundary camel inductionHypothesis =>
      have upper : rest.head?.any Char.isUpper = true := by
        simp only [boundary, Bool.and_eq_true] at camel
        exact camel.2
      rw [List.map_cons, List.flatMap_cons, inductionHypothesis]
      rw [List.isEmpty_nil, capitalisedFrom_upper upper]
      cases current <;> simp_all [upperFirst, capitalisedFrom, whole]
  | case6 current character rest letter whole boundary plain
      inductionHypothesis =>
      rw [inductionHypothesis]
      cases current <;> simp_all [upperFirst, capitalisedFrom, whole]

/-- A name where a type may not be named: nothing, or what starts with a digit. -/
def valued (spelled : String) : String :=
  if spelled.isEmpty then "Value"
  else if spelled.toList.head?.any Char.isDigit then "Value" ++ spelled
  else spelled

theorem pascalIdentifier_eq (value : String) :
    pascalIdentifier value = valued (capitalised value) := by
  have joined : String.join ((words value).map upperFirst)
      = capitalised value := by
    apply String.toList_injective
    rw [String.toList_join, words, flatMap_wordsFrom]
    simp [upperFirst, capitalised]
  unfold pascalIdentifier valued
  rw [joined]
  dsimp only
  split <;> rename_i empty
  · rfl
  · rfl

/-- A type name: an upper-case letter, then letters and digits. -/
def IsTypeName (text : String) : Prop :=
  ∃ first rest, text.toList = first :: rest ∧ first.isUpper = true
    ∧ ∀ character ∈ rest, character.isAlphanum = true

theorem isAlphanum_toUpper (character : Char) :
    character.toUpper.isAlphanum = character.isAlphanum := by
  by_cases lower : character.isLower = true
  · have upper : character.toUpper.isAlpha = true := by
      simp [Char.isAlpha, lower]
    simp [Char.isAlphanum, Char.isAlpha, lower]
  · rw [Char.toUpper_eq_of_not_isLower lower]

theorem isAlphanum_of_mem_capitalisedFrom {starts : Bool} {text : List Char}
    {character : Char} (within : character ∈ capitalisedFrom starts text) :
    character.isAlphanum = true := by
  induction text generalizing starts with
  | nil => cases within
  | cons first rest inductionHypothesis =>
      rw [capitalisedFrom] at within
      split at within
      · next letter =>
        rcases List.mem_cons.mp within with rfl | within
        · split
          · rw [isAlphanum_toUpper, letter]
          · exact letter
        · exact inductionHypothesis within
      · exact inductionHypothesis within

theorem head_capitalisedFrom {text rest : List Char} {first : Char}
    (spelled : capitalisedFrom true text = first :: rest) :
    first.isDigit = true ∨ first.isUpper = true := by
  induction text with
  | nil => cases spelled
  | cons character text inductionHypothesis =>
      rw [capitalisedFrom] at spelled
      split at spelled
      · next letter =>
        obtain ⟨rfl, -⟩ := List.cons.inj spelled
        rw [if_pos rfl]
        by_cases digit : character.isDigit = true
        · left
          have same := Char.toUpper_eq_of_not_isLower (c := character) (by
            simp [Char.isDigit, Char.isLower, UInt32.le_iff_toNat_le] at *
            omega)
          rw [same, digit]
        · right
          simpa [Char.isAlphanum, digit] using letter
      · exact inductionHypothesis spelled

theorem isTypeName_valued (value : String) :
    IsTypeName (valued (capitalised value)) := by
  have letters : ∀ character ∈ ['a', 'l', 'u', 'e'],
      character.isAlphanum = true := List.all_eq_true.mp (by decide)
  unfold valued
  split
  · exact ⟨'V', ['a', 'l', 'u', 'e'], rfl, by decide, letters⟩
  · next nonempty =>
    split
    · refine ⟨'V', ['a', 'l', 'u', 'e'] ++ (capitalised value).toList, ?_,
        by decide, ?_⟩
      · rw [String.toList_append]
        rfl
      · intro character within
        rcases List.mem_append.mp within with within | within
        · exact letters character within
        · simp only [capitalised, String.toList_ofList] at within
          exact isAlphanum_of_mem_capitalisedFrom within
    · next letter =>
      obtain ⟨first, rest, spelled⟩ :
          ∃ first rest, (capitalised value).toList = first :: rest := by
        cases held : (capitalised value).toList with
        | nil => simp [String.toList_eq_nil_iff.mp held] at nonempty
        | cons first rest => exact ⟨first, rest, rfl⟩
      rw [spelled] at letter
      have held : capitalisedFrom true value.toList = first :: rest := by
        simpa [capitalised] using spelled
      refine ⟨first, rest, spelled, ?_, ?_⟩
      · rcases head_capitalisedFrom held with digit | upper
        · simp [digit] at letter
        · exact upper
      · intro character within
        exact isAlphanum_of_mem_capitalisedFrom
          (held ▸ List.mem_cons_of_mem first within)

theorem isTypeName_pascalIdentifier (value : String) :
    IsTypeName (pascalIdentifier value) := by
  rw [pascalIdentifier_eq]
  exact isTypeName_valued value

theorem IsTypeName.append {left right : String} (first : IsTypeName left)
    (later : ∀ character ∈ right.toList, character.isAlphanum = true) :
    IsTypeName (left ++ right) := by
  obtain ⟨letter, rest, spelled, upper, letters⟩ := first
  refine ⟨letter, rest ++ right.toList, ?_, upper, ?_⟩
  · rw [String.toList_append, spelled, List.cons_append]
  · intro character within
    rcases List.mem_append.mp within with within | within
    · exact letters character within
    · exact later character within

theorem IsTypeName.isAlphanum {text : String} (named : IsTypeName text) :
    ∀ character ∈ text.toList, character.isAlphanum = true := by
  obtain ⟨letter, rest, spelled, upper, letters⟩ := named
  intro character within
  rw [spelled] at within
  rcases List.mem_cons.mp within with rfl | within
  · simp [Char.isAlphanum, Char.isAlpha, upper]
  · exact letters character within

end Types

end Clerkenwell.Codegen
