import RecordQuery.Text.Blank
import RecordQuery.Text.Quoted
import RecordQuery.Text.Split

/-!
# Scripts and index specifications

A script is cut into statements at the semicolons outside string literals. A statement is blank if
every line of it is empty or a comment. An index specification names an index and its fields.
-/

namespace RecordQuery.Script

/-- Where the splitter stands: outside string literals, inside one, or after a backslash in one. -/
inductive Place where
  | outside
  | inside
  | escaped
  deriving DecidableEq, Repr, Inhabited

/-- The parts of the rest of a script, given what the current part holds so far, in reverse. -/
def partsFrom (place : Place) (current : List Char) : List Char → List (List Char)
  | [] => [current.reverse]
  | c :: rest =>
    match place with
    | .escaped => partsFrom .inside (c :: current) rest
    | .inside =>
      let next := if c = '\\' then .escaped else if c = '"' then .outside else .inside
      partsFrom next (c :: current) rest
    | .outside =>
      if c = ';' then current.reverse :: partsFrom .outside [] rest
      else partsFrom (if c = '"' then .inside else .outside) (c :: current) rest

/-- The parts of a script between its semicolons, as they stand. -/
def parts (script : List Char) : List (List Char) := partsFrom .outside [] script

/-- The statements of a script: its parts without blanks around them, as far as they are not
empty. -/
def statements (script : String) : List String :=
  (((parts script.toList).map Text.strip).filter fun part => !part.isEmpty).map String.ofList

/-- Whether a line is empty or a comment. -/
def isBlankLine (line : List Char) : Bool :=
  match Text.strip line with
  | [] => true
  | '-' :: '-' :: _ => true
  | _ => false

/-- Whether a statement holds nothing but blanks and comments. -/
def isBlank (statement : String) : Bool := (Text.lines statement.toList).all isBlankLine

end RecordQuery.Script

namespace RecordQuery

/-- The name of an index and its fields. -/
structure IndexSpec where
  name : String
  fields : List String
  deriving DecidableEq, Repr, Inhabited

namespace IndexSpec

/-- The wording for a text that is no index specification. -/
def refusal (text : String) : String := "Invalid index specification: " ++ Text.quoted text

/-- Reads a name, or a name and fields after an equals sign with commas between them; a name alone
is its own field. -/
def ofText? (text : String) : Option IndexSpec :=
  let cs := text.toList
  let name := Text.strip (cs.takeWhile (· != '='))
  if name.isEmpty then none
  else match cs.dropWhile (· != '=') with
    | [] => some ⟨String.ofList name, [String.ofList name]⟩
    | _ :: listed =>
      let fields := ((Text.splitAt ',' listed).map Text.strip).filter fun field => !field.isEmpty
      if fields.isEmpty then none else some ⟨String.ofList name, fields.map String.ofList⟩

end IndexSpec

end RecordQuery
