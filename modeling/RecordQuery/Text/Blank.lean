/-!
# Blanks and lines

Blanks are the 29 white space characters of Unicode. Lines end at the line breaks of Unicode text,
where a carriage return with a line feed is one break, and a break at the end opens no further line.
-/

namespace RecordQuery.Text

/-- The code points of the blanks. -/
def blankCodes : List Nat := [
  0x9, 0xA, 0xB, 0xC, 0xD, 0x1C, 0x1D, 0x1E, 0x1F, 0x20, 0x85, 0xA0, 0x1680, 0x2000, 0x2001, 0x2002,
  0x2003, 0x2004, 0x2005, 0x2006, 0x2007, 0x2008, 0x2009, 0x200A, 0x2028, 0x2029, 0x202F, 0x205F,
  0x3000]

/-- Whether the character is white space. -/
def isBlank (c : Char) : Bool := blankCodes.contains c.toNat

/-- The code points that end a line. -/
def lineBreakCodes : List Nat := [0xA, 0xB, 0xC, 0xD, 0x1C, 0x1D, 0x1E, 0x85, 0x2028, 0x2029]

/-- Whether the character ends a line. -/
def isLineBreak (c : Char) : Bool := lineBreakCodes.contains c.toNat

/-- The text without the blanks at its two ends. -/
def strip (cs : List Char) : List Char :=
  ((cs.dropWhile isBlank).reverse.dropWhile isBlank).reverse

/-- The lines of a text after the characters of the current line, which are held in reverse. -/
def linesFrom : List Char → List Char → List (List Char)
  | [], [] => []
  | current, [] => [current.reverse]
  | current, '\r' :: '\n' :: rest => current.reverse :: linesFrom [] rest
  | current, c :: rest =>
    if isLineBreak c then current.reverse :: linesFrom [] rest
    else linesFrom (c :: current) rest

/-- The lines of a text, without their breaks. -/
def lines (cs : List Char) : List (List Char) := linesFrom [] cs

/-- The text with every carriage return, alone or before a line feed, read as a line feed. -/
def unifyNewlines : List Char → List Char
  | [] => []
  | '\r' :: '\n' :: rest => '\n' :: unifyNewlines rest
  | '\r' :: rest => '\n' :: unifyNewlines rest
  | c :: rest => c :: unifyNewlines rest

end RecordQuery.Text
