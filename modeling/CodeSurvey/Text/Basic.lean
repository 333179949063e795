import CodeSurvey.Text.CharClass
import CodeSurvey.Text.Cut

/-!
# Texts

A text is a list of characters; every offset counts characters. This module holds trimming,
splitting into words, searching and replacing.
-/

namespace CodeSurvey.Text

/-! ## Trimming -/

/-- The text without the characters of a class at its end. -/
def dropEndWhile (p : Char → Bool) (text : List Char) : List Char :=
  (text.reverse.dropWhile p).reverse

/-- The text without blanks at its start. -/
def trimStart (text : List Char) : List Char :=
  text.dropWhile isSpace

/-- The text without blanks at its end. -/
def trimEnd (text : List Char) : List Char :=
  dropEndWhile isSpace text

/-- The text without blanks at either end. -/
def trim (text : List Char) : List Char :=
  trimEnd (trimStart text)

/-- Whether a text holds nothing but blanks. -/
def isBlank (text : List Char) : Bool :=
  text.all isSpace

/-! ## Words -/

/-- The words of a text, where `word` holds the characters (last first) of the word being read. -/
def wordsFrom (word : List Char) : List Char → List (List Char)
  | [] => if word.isEmpty then [] else [word.reverse]
  | c :: rest =>
    if isSpace c then
      if word.isEmpty then wordsFrom [] rest else word.reverse :: wordsFrom [] rest
    else wordsFrom (c :: word) rest

/-- The maximal runs of characters that are not blank. -/
def words (text : List Char) : List (List Char) :=
  wordsFrom [] text

/-- The words of a text with one blank between neighbours. -/
def squeeze (text : List Char) : List Char :=
  [' '].intercalate (words text)

/-! ## Searching -/

/-- Whether a text starts with another. -/
def startsWith (text start : List Char) : Bool :=
  start.isPrefixOf text

/-- Whether a text ends with another. -/
def endsWith (text ending : List Char) : Bool :=
  ending.isSuffixOf text

/-- The offset of the first occurrence of a text in another. -/
def indexOf? (needle : List Char) : List Char → Option Nat
  | [] => if needle.isEmpty then some 0 else none
  | c :: rest =>
    if needle.isPrefixOf (c :: rest) then some 0 else (indexOf? needle rest).map (· + 1)

/-- The offset of the first occurrence at or after a given offset. -/
def indexFrom? (needle text : List Char) (start : Nat) : Option Nat :=
  (indexOf? needle (text.drop start)).map (· + start)

/-- A character that stands at the offset is found there. -/
theorem indexFrom?_here {text : List Char} {c : Char} {place : Nat} (h : text[place]? = some c) :
    indexFrom? [c] text place = some place := by
  obtain ⟨hplace, hget⟩ := List.getElem?_eq_some_iff.mp h
  rw [indexFrom?, List.drop_eq_getElem_cons hplace, hget]
  simp [indexOf?]

/-- The offset of the last occurrence of a character. -/
def lastIndexOf? (c : Char) (text : List Char) : Option Nat :=
  (text.reverse.findIdx? (· == c)).map fun i => text.length - 1 - i

/-- Whether a text occurs in another. -/
def contains (text needle : List Char) : Bool :=
  (indexOf? needle text).isSome

/-- Whether one of the given texts occurs in a text. -/
def containsAny (text : List Char) (needles : List (List Char)) : Bool :=
  needles.any (contains text)

/-- How often a character occurs. -/
def count (c : Char) (text : List Char) : Nat :=
  text.count c

/-! ## Splitting -/

/-- The parts of a text between the occurrences of a character, empty ones included. -/
def splitAt (c : Char) : List Char → List (List Char)
  | [] => [[]]
  | d :: rest =>
    if d == c then [] :: splitAt c rest
    else match splitAt c rest with
      | part :: parts => (d :: part) :: parts
      | [] => [[d]]

/-- What follows the last occurrence of a character, or the whole text. -/
def afterLast (c : Char) (text : List Char) : List Char :=
  (text.reverse.takeWhile (· != c)).reverse

/-- The part of a text before the first occurrence of a character, or the whole text. -/
def beforeFirst (c : Char) (text : List Char) : List Char :=
  text.takeWhile (· != c)

/-- The text with one character in place of another. -/
def replaceChar (old new : Char) (text : List Char) : List Char :=
  text.map fun c => if c == old then new else c

/-- The parts with a separator between neighbours. -/
def join (separator : List Char) (parts : List (List Char)) : List Char :=
  separator.intercalate parts

end CodeSurvey.Text
