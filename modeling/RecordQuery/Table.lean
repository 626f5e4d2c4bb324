import RecordQuery.Itq.Execution

/-!
# Tables

Results are shown as tables: a header, a rule, one line per row and the number of rows. Values are
shortened to a width, long lists to a number of items, and no column is wider than forty characters.
-/

namespace RecordQuery.Table

/-- How much of a value is shown. -/
structure Limits where
  items : Int
  width : Int
  deriving DecidableEq, Repr, Inhabited

/-- Ten items of a list and forty characters. -/
def standard : Limits := ⟨10, 40⟩

/-- The first `count` characters; a negative count leaves out as many at the end. -/
def front (count : Int) (cs : List Char) : List Char :=
  if 0 ≤ count then cs.take count.toNat else cs.take (cs.length - (-count).toNat)

/-- The text cut to leave room for an ending, if it is longer than the width. -/
def shorten (width : Int) (ending : String) (s : String) : String :=
  let cs := s.toList
  if width < cs.length then
    String.ofList (front (width - ending.length) cs) ++ ending
  else s

mutual
/-- A value as a cell shows it. -/
def cell (limits : Limits) : Value → String
  | .null => "NULL"
  | .bool b => if b then "true" else "false"
  | .float x => x.briefText
  | .str s => Text.quoted (shorten limits.width "..." s)
  | .list items =>
    let shown := cells limits limits.items items
    shorten limits.width "...]" ("[" ++ Text.join ", " shown ++ "]")
  | v => shorten limits.width "..." v.text
termination_by structural v => v

/-- The cells of the items of a list, up to a number of items, and how many more there are. -/
def cells (limits : Limits) (room : Int) : List Value → List String
  | [] => []
  | v :: rest =>
    if room ≤ 0 then ["...+" ++ toString ((rest.length : Int) + 1 - room) ++ " more"]
    else cell limits v :: cells limits (room - 1) rest
termination_by structural items => items
end

/-- The greatest width of a column. -/
def widestColumn : Nat := 40

/-- The text filled up with spaces to a width. -/
def pad (width : Nat) (s : String) : String :=
  s ++ String.ofList (List.replicate (width - s.length) ' ')

/-- What a row shows in a column. -/
def cellAt (row : Entries Value) (column : String) : String :=
  cell standard (.ofOption (row.find? (.str column)))

/-- The width of a column: that of its widest text, up to the greatest width. -/
def columnWidth (rows : List (Entries Value)) (column : String) : Nat :=
  min (rows.foldl (fun width row => max width (cellAt row column).length) column.length)
    widestColumn

/-- The header's text for a column of a width. -/
def headerCell (width : Nat) (column : String) : String :=
  String.ofList ((pad width column).toList.take width)

/-- A row's text for a column of a width. -/
def rowCell (width : Nat) (text : String) : String :=
  pad width (if width < text.length then
    String.ofList (text.toList.take (width - 3)) ++ "..." else text)

/-- The lines of a table. -/
def lines (columns : List String) (rows : List (Entries Value)) : List String :=
  let widths := columns.map fun column => (column, columnWidth rows column)
  let header := Text.join " | " (widths.map fun (column, width) => headerCell width column)
  let body := rows.map fun row =>
    Text.join " | " (widths.map fun (column, width) => rowCell width (cellAt row column))
  header :: String.ofList (List.replicate header.length '-') :: body

/-- The line that counts the rows. -/
def countLine (count : Nat) : String :=
  "(" ++ Nat.repr count ++ " row" ++ (if count = 1 then "" else "s") ++ ")"

/-- The lines with a line feed after each of them. -/
def unlines (lines : List String) : String := String.join (lines.map (· ++ "\n"))

/-- A result as text: its message, if it has one, or the table of its rows. -/
def render (columns : List String) (rows : List (Entries Value)) (message : Option String) :
    String :=
  match message with
  | some text =>
    if text.isEmpty then table columns rows else unlines ["Error: " ++ text]
  | none => table columns rows
where
  /-- The table of the rows, if there are any. -/
  table (columns : List String) (rows : List (Entries Value)) : String :=
    if rows.isEmpty then unlines ["(no results)"]
    else unlines (lines columns rows ++ ["", countLine rows.length])

/-- The result of a statement as text. -/
def renderResult (result : Itq.Result) : String :=
  render (result.columns.map Value.text) result.rows result.message

end RecordQuery.Table
