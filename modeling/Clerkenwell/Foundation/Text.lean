import Mathlib.Data.List.Infix

/-!
# Text as a list of characters

The string operations of Rust's standard library that the modelled programs
use, over the characters of a string.  They are structural recursions, so a
concrete string can be evaluated.
-/

namespace Clerkenwell.Foundation.Text

/-- `char::is_whitespace`: the characters with the property `White_Space`. -/
def isWhitespace (character : Char) : Bool :=
  let point := character.toNat
  (9 ≤ point && point ≤ 13) || point == 0x20 || point == 0x85
    || point == 0xA0 || point == 0x1680
    || (0x2000 ≤ point && point ≤ 0x200A)
    || point == 0x2028 || point == 0x2029 || point == 0x202F
    || point == 0x205F || point == 0x3000

/-- `text.trim().is_empty()`. -/
def isBlank (text : String) : Bool :=
  text.toList.all isWhitespace

/-- The pieces of a text between its separators. -/
def pieces (separator : Char) : List Char → List (List Char)
  | [] => [[]]
  | character :: rest =>
      if character = separator then
        [] :: pieces separator rest
      else
        match pieces separator rest with
        | [] => [[character]]
        | first :: others => (character :: first) :: others

/-- `text.split(separator)`. -/
def split (separator : Char) (text : String) : List String :=
  (pieces separator text.toList).map String.ofList

/-- `text.strip_prefix(start)`, over characters. -/
def stripPrefixChars : List Char → List Char → Option (List Char)
  | text, [] => some text
  | [], _ :: _ => none
  | character :: text, expected :: start =>
      if character = expected then stripPrefixChars text start else none

/-- `text.strip_prefix(start)`. -/
def stripPrefix (text start : String) : Option String :=
  (stripPrefixChars text.toList start.toList).map String.ofList

/-- `text.starts_with(start)`. -/
def startsWith (text start : String) : Bool :=
  (stripPrefix text start).isSome

/-- `text.contains(pattern)`, over characters. -/
def containsChars (pattern : List Char) : List Char → Bool
  | [] => pattern.isEmpty
  | character :: rest =>
      pattern.isPrefixOf (character :: rest) || containsChars pattern rest

/-- `text.contains(pattern)`. -/
def contains (text pattern : String) : Bool :=
  containsChars pattern.toList text.toList

/--
`text.replace(pattern, replacement)` for a pattern that is not empty, over
characters.  `skipped` counts the characters of a match still to pass over.
-/
def replaceChars (pattern replacement : List Char) :
    Nat → List Char → List Char
  | _, [] => []
  | skipped + 1, _ :: rest => replaceChars pattern replacement skipped rest
  | 0, character :: rest =>
      if pattern.isPrefixOf (character :: rest) then
        replacement ++
          replaceChars pattern replacement (pattern.length - 1) rest
      else
        character :: replaceChars pattern replacement 0 rest

/-- `text.replace(pattern, replacement)` for a pattern that is not empty. -/
def replace (text pattern replacement : String) : String :=
  String.ofList
    (replaceChars pattern.toList replacement.toList 0 text.toList)

/-- `text.split_once(pattern)`, over characters. -/
def splitOnceChars (pattern : List Char) :
    List Char → Option (List Char × List Char)
  | [] => if pattern.isEmpty then some ([], []) else none
  | character :: rest =>
      if pattern.isPrefixOf (character :: rest) then
        some ([], (character :: rest).drop pattern.length)
      else
        (splitOnceChars pattern rest).map fun (before, after) =>
          (character :: before, after)

/-- `text.split_once(pattern)`. -/
def splitOnce (text pattern : String) : Option (String × String) :=
  (splitOnceChars pattern.toList text.toList).map fun (before, after) =>
    (String.ofList before, String.ofList after)

/-- A text is split at the first separator in it. -/
theorem splitOnceChars_append {separator : Char} {before : List Char}
    (absent : separator ∉ before) (after : List Char) :
    splitOnceChars [separator] (before ++ separator :: after)
      = some (before, after) := by
  induction before with
  | nil => simp [splitOnceChars]
  | cons character before inductionHypothesis =>
      rw [List.mem_cons, not_or] at absent
      simp [splitOnceChars, absent.1, inductionHypothesis absent.2]

/-- `text.rsplit_once(separator)`. -/
def rsplitOnce (separator : Char) (text : String) :
    Option (String × String) :=
  match (pieces separator text.toList).reverse with
  | [] | [_] => none
  | last :: earlier =>
      some
        (String.ofList ([separator].intercalate earlier.reverse),
          String.ofList last)

/-- `parts.join(separator)`. -/
def join (separator : String) (parts : List String) : String :=
  separator.intercalate parts

end Clerkenwell.Foundation.Text
