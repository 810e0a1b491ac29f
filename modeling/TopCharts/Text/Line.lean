import TopCharts.Text.CharSet

/-!
# White space and lines

* `isBlank` : the characters with the White_Space property of Unicode;
* `trim` : a text without the blanks at its ends;
* `lines` : the lines of a text. A line ends at a line feed, and a carriage return before it
  belongs to the end; a last line need not be ended, and nothing follows a last line feed.
-/

namespace TopCharts.Text

/-- The characters with the White_Space property. -/
def blanks : CharSet where
  boundaries := [
    0x9, 0xe, 0x20, 0x21, 0x85, 0x86, 0xa0, 0xa1, 0x1680, 0x1681, 0x2000, 0x200b, 0x2028, 0x202a,
    0x202f, 0x2030, 0x205f, 0x2060, 0x3000, 0x3001]

def isBlank (c : Char) : Bool :=
  blanks.contains c

/-- The text without the blanks at its ends. -/
def trim (s : List Char) : List Char :=
  ((s.dropWhile isBlank).reverse.dropWhile isBlank).reverse

/-- The line without the carriage return that ends it. -/
def dropReturn (line : List Char) : List Char :=
  if line.getLast? = some '\r' then line.dropLast else line

def lines (s : List Char) : List (List Char) :=
  let pieces := s.splitOn '\n'
  pieces.dropLast.map dropReturn ++ (pieces.getLast?.filter (· ≠ [])).toList

end TopCharts.Text
