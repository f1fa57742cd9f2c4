import Clerkenwell.Foundation.Text
import Mathlib.Data.List.Lex
import Mathlib.Data.Nat.Basic

/-!
# Identifier spelling

How the names of a definition become Rust and TypeScript names.
-/

namespace Clerkenwell.Codegen

open Clerkenwell.Foundation

/-- The words of a text, `current` being what has been read of the first. -/
def wordsFrom (current : List Char) : List Char → List String
  | [] => if current.isEmpty then [] else [String.ofList current]
  | character :: rest =>
      if !character.isAlphanum then
        if current.isEmpty then wordsFrom [] rest
        else String.ofList current :: wordsFrom [] rest
      else
        let word := current ++ [character]
        let camelBoundary :=
          (character.isLower || character.isDigit)
            && rest.head?.any Char.isUpper
        if camelBoundary then String.ofList word :: wordsFrom [] rest
        else wordsFrom word rest

/--
The words of `value`: a lower-case letter or digit followed by an upper-case
letter starts a new word, and every run of other characters separates words.
-/
def words (value : String) : List String :=
  wordsFrom [] value.toList

def upperFirst (word : String) : String :=
  match word.toList with
  | [] => ""
  | first :: rest => String.ofList (first.toUpper :: rest)

def asciiLowercase (text : String) : String :=
  String.ofList (text.toList.map Char.toLower)

def asciiUppercase (text : String) : String :=
  String.ofList (text.toList.map Char.toUpper)

/-- A generated type name: `story.byKey` becomes `StoryByKey`. -/
def pascalIdentifier (value : String) : String :=
  let joined := String.join ((words value).map upperFirst)
  let candidate := if joined.isEmpty then "Value" else joined
  if candidate.toList.head?.any Char.isDigit then s!"Value{candidate}"
  else candidate

/-- A fixture string stem: `scenarios.*.worldKey` becomes `scenarios-world-key`. -/
def kebabIdentifier (value : String) : String :=
  let joined := asciiLowercase ("-".intercalate (words value))
  if joined.isEmpty then "value" else joined

def rustKeywords : List String :=
  ["as", "break", "const", "continue", "crate", "else", "enum", "extern",
    "false", "fn", "for", "if", "impl", "in", "let", "loop", "match", "mod",
    "move", "mut", "pub", "ref", "return", "self", "Self", "static", "struct",
    "super", "trait", "true", "type", "unsafe", "use", "where", "while"]

/-- A Rust field name for a wire property, raw where it is a keyword. -/
def rustFieldIdentifier (value : String) : String :=
  let joined := "_".intercalate ((words value).map asciiLowercase)
  let candidate := if joined.isEmpty then "value" else joined
  let candidate :=
    if candidate.toList.head?.any Char.isDigit then s!"value_{candidate}"
    else candidate
  if rustKeywords.contains candidate then s!"r#{candidate}" else candidate

/-- What `String.prototype.trim` removes. -/
def isJsWhitespace (character : Char) : Bool :=
  character == '\uFEFF'
    || (character != '\u0085' && Text.isWhitespace character)

def jsTrim (value : String) : String :=
  String.ofList
    ((value.toList.dropWhile isJsWhitespace).reverse.dropWhile
      isJsWhitespace).reverse

/-- UTF-16 code units of a text. -/
def codeUnits (value : String) : List Nat :=
  value.toList.flatMap fun character =>
    let point := character.toNat
    if point < 0x10000 then [point]
    else
      [0xD800 + (point - 0x10000) / 0x400, 0xDC00 + (point - 0x10000) % 0x400]

/-- The order of `Array.prototype.sort` with no comparator. -/
def codeUnitsBefore (left right : String) : Bool :=
  decide (codeUnits left ≤ codeUnits right)

example : pascalIdentifier "story.byKey" = "StoryByKey" := by decide

end Clerkenwell.Codegen
