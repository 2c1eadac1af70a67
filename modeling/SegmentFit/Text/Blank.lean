import SegmentFit.Text.Ranges

/-!
# Blank characters and words

A blank is a character that separates words: the white space of Unicode together
with the four information separators U+001C to U+001F. A text's words are its
longest pieces without blanks.
-/

namespace SegmentFit.Text

def blankRanges : List CodeRange :=
  [(0x09, 0x0D), (0x1C, 0x20), (0x85, 0x85), (0xA0, 0xA0), (0x1680, 0x1680),
   (0x2000, 0x200A), (0x2028, 0x2029), (0x202F, 0x202F), (0x205F, 0x205F),
   (0x3000, 0x3000)]

def isBlank (c : Char) : Bool :=
  inRanges blankRanges c.toNat

example : ascending blankRanges = true := by decide
example : rangeCount blankRanges = 29 := by decide

/-- The words of a text, given the letters of the word being read, last letter first. -/
def wordsFrom (letters : List Char) : List Char → List (List Char)
  | [] => if letters.isEmpty then [] else [letters.reverse]
  | c :: rest =>
    if isBlank c then
      if letters.isEmpty then wordsFrom [] rest else letters.reverse :: wordsFrom [] rest
    else wordsFrom (c :: letters) rest

/-- The words of a text: its longest pieces without blanks. -/
def words (text : List Char) : List (List Char) :=
  wordsFrom [] text

def allBlank (text : List Char) : Bool :=
  text.all isBlank

end SegmentFit.Text
