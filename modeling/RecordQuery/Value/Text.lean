import RecordQuery.Number.DecimalText
import RecordQuery.Text.Quoted
import RecordQuery.Text.Split
import RecordQuery.Value.Basic

/-!
# The text of a value

Every value has a display, in which texts are quoted, and a plain text, which differs from the
display only for a text, shown as it is, for a decimal and for a direction.
-/

namespace RecordQuery

namespace Value

/-- The display of a direction. -/
def displayDirection (d : Direction) : String :=
  "<Direction." ++ d.word ++ ": '" ++ d.word ++ "'>"

/-- The display of a sort key. -/
def displaySortKey (key : SortKey) : String :=
  "SortKey(field=" ++ Text.quoted key.field ++ ", direction=" ++
    displayDirection key.direction ++ ")"

/-- The display of an object tells its identity only. -/
def displayObject (identity : Nat) : String :=
  "<object object at 0x" ++ String.ofList (Text.hexDigits 12 identity) ++ ">"

mutual
/-- The display of a value: constants by name, numbers in plain text, texts quoted, and the rest
with the brackets of its kind. -/
def display : Value → String
  | .null => "None"
  | .bool true => "True"
  | .bool false => "False"
  | .int n => toString n
  | .float x => x.text
  | .decimal negative d => "Decimal('" ++ d.text negative ++ "')"
  | .str s => Text.quoted s
  | .list items => "[" ++ Text.join ", " (displays items) ++ "]"
  | .tuple [item] => "(" ++ display item ++ ",)"
  | .tuple items => "(" ++ Text.join ", " (displays items) ++ ")"
  | .set [] => "set()"
  | .set items => "\x7b" ++ Text.join ", " (displays items) ++ "\x7d"
  | .map entries => "\x7b" ++ Text.join ", " (displayEntries entries) ++ "\x7d"
  | .object identity _ => displayObject identity
  | .direction d => displayDirection d
  | .sortKey key => displaySortKey key
termination_by structural v => v

/-- The displays of the items of a sequence. -/
def displays : List Value → List String
  | [] => []
  | v :: rest => display v :: displays rest
termination_by structural v => v

/-- The displays of the entries of a mapping. -/
def displayEntries : List (Value × Value) → List String
  | [] => []
  | (k, v) :: rest => (display k ++ ": " ++ display v) :: displayEntries rest
termination_by structural v => v
end

/-- The plain text of a value. -/
def text : Value → String
  | .decimal negative d => d.text negative
  | .str s => s
  | .direction d => "Direction." ++ d.word
  | v => v.display

end Value

end RecordQuery
