/-!
# Lines

Text files may end their lines with a line feed, a carriage return, or both in this
order. Read as text, every end of line is one line feed.
-/

namespace SegmentFit.Text

/-- A text with every end of line turned into a line feed. -/
def unifyNewlines : List Char → List Char
  | [] => []
  | '\r' :: '\n' :: rest => '\n' :: unifyNewlines rest
  | '\r' :: rest => '\n' :: unifyNewlines rest
  | c :: rest => c :: unifyNewlines rest

/-- The lines of a text, each with its line feed, given the characters of the line
being read, the last one first. -/
def linesFrom (line : List Char) : List Char → List (List Char)
  | [] => if line.isEmpty then [] else [line.reverse]
  | '\n' :: rest => ('\n' :: line).reverse :: linesFrom [] rest
  | c :: rest => linesFrom (c :: line) rest

/-- The lines of a text, each with its line feed; the last one may have none. -/
def lines (text : List Char) : List (List Char) :=
  linesFrom [] text

def isTerminated (line : List Char) : Bool :=
  line.getLast? == some '\n'

/-- The lines of which a text shows the end before it breaks off. A carriage return at
the break shows none, since a line feed may belong to it. -/
def completeLines (text : List Char) : List (List Char) :=
  let shown := if text.getLast? = some '\r' then text.dropLast else text
  (lines (unifyNewlines shown)).filter isTerminated

example : completeLines ['a', '\r', 'b', '\r'] = [['a', '\n']] := by decide
example : completeLines ['a', '\r', '\n', 'b'] = [['a', '\n']] := by decide

end SegmentFit.Text
