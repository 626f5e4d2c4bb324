/-!
# Splitting at a character

A text is cut at every occurrence of one character. There is always one part more than there are
cuts, and parts may be empty.
-/

namespace RecordQuery.Text

/-- The parts of a text between the occurrences of the separator. -/
def splitAt (separator : Char) : List Char → List (List Char)
  | [] => [[]]
  | c :: rest =>
    if c = separator then [] :: splitAt separator rest
    else match splitAt separator rest with
      | [] => [[c]]
      | part :: parts => (c :: part) :: parts

/-- The strings between the occurrences of the separator. -/
def splitString (separator : Char) (s : String) : List String :=
  (splitAt separator s.toList).map String.ofList

/-- The strings with a separator between each two of them. -/
def join (separator : String) : List String → String
  | [] => ""
  | [s] => s
  | s :: rest => s ++ separator ++ join separator rest

end RecordQuery.Text
