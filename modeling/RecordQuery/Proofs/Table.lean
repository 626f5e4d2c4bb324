import Mathlib
import RecordQuery.Proofs.Value.Printable
import RecordQuery.Table

/-!
# Tables are aligned

A column is as wide as its widest cell or forty characters wide, so only a cell of a column of forty
characters is ever cut (`length_rowCell`). All lines of a table have the length of its columns with
their separators, and as cells are printable, no value breaks a line (`render_aligned`).
-/

namespace RecordQuery.Table

open Text (IsPrintable isPrintable_ofList isPrintable_join isPrintable_quoted)

/-! ## Cells -/

theorem isPrintable_shorten {s ending : String} (printable : IsPrintable s)
    (end_printable : IsPrintable ending) (width : Int) :
    IsPrintable (shorten width ending s) := by
  unfold shorten
  dsimp only
  split
  · refine IsPrintable.append (printable.sublist ?_) end_printable
    unfold front
    split <;> exact List.take_sublist _ _
  · exact printable

theorem isPrintable_elided (count : Int) :
    IsPrintable ("...+" ++ toString count ++ " more") := by
  have dots : IsPrintable "...+" := by decide
  have more : IsPrintable " more" := by decide
  exact (dots.append (isPrintable_toString count)).append more

mutual
theorem isPrintable_cell (limits : Limits) : (v : Value) → IsPrintable (cell limits v)
  | .null => (by decide : IsPrintable "NULL")
  | .bool true => (by decide : IsPrintable "true")
  | .bool false => (by decide : IsPrintable "false")
  | .int n => isPrintable_shorten (isPrintable_toString n) (by decide) _
  | .float x => x.isPrintable_briefText
  | .decimal negative d => isPrintable_shorten (d.isPrintable_text negative) (by decide) _
  | .str s => isPrintable_quoted _
  | .list items =>
    have each := isPrintable_cells limits limits.items items
    isPrintable_shorten (Value.isPrintable_bracketed (by decide) (by decide) each) (by decide) _
  | .tuple items => isPrintable_shorten (Value.isPrintable_display (.tuple items)) (by decide) _
  | .set items => isPrintable_shorten (Value.isPrintable_display (.set items)) (by decide) _
  | .map entries => isPrintable_shorten (Value.isPrintable_display (.map entries)) (by decide) _
  | .object identity attributes =>
    isPrintable_shorten (Value.isPrintable_display (.object identity attributes)) (by decide) _
  | .direction d => by
    have name : IsPrintable (Value.direction d).text := by cases d <;> decide
    exact isPrintable_shorten name (by decide) _
  | .sortKey key => isPrintable_shorten (Value.isPrintable_display (.sortKey key)) (by decide) _
termination_by structural v => v

theorem isPrintable_cells (limits : Limits) (room : Int) :
    (items : List Value) → ∀ s ∈ cells limits room items, IsPrintable s
  | [] => List.forall_mem_nil _
  | v :: rest => by
    have first := isPrintable_cell limits v
    have later := isPrintable_cells limits (room - 1) rest
    unfold cells
    split
    · exact List.forall_mem_singleton.mpr (isPrintable_elided _)
    · exact List.forall_mem_cons.mpr ⟨first, later⟩
termination_by structural items => items
end

/-! ## Widths -/

theorem length_join (separator : String) (parts : List String) :
    (Text.join separator parts).length =
      (parts.map String.length).sum + separator.length * (parts.length - 1) := by
  induction parts with
  | nil => rfl
  | cons s parts ih =>
    cases parts with
    | nil => simp [Text.join]
    | cons t parts =>
      have split : Text.join separator (s :: t :: parts) =
          s ++ separator ++ Text.join separator (t :: parts) := rfl
      rw [split, String.length_append, String.length_append, ih]
      simp only [List.map_cons, List.sum_cons, List.length_cons, Nat.add_sub_cancel, Nat.mul_succ]
      omega

theorem length_pad (width : Nat) (s : String) : (pad width s).length = max s.length width := by
  unfold pad
  rw [String.length_append, String.length_ofList, List.length_replicate]
  omega

theorem length_headerCell (width : Nat) (column : String) :
    (headerCell width column).length = width := by
  unfold headerCell
  rw [String.length_ofList, List.length_take, String.length_toList, length_pad]
  omega

/-- A cell has the width of its column, if it need not be cut or there is room for the dots. -/
theorem length_rowCell {width : Nat} {text : String} (room : width < text.length → 3 ≤ width) :
    (rowCell width text).length = width := by
  unfold rowCell
  rw [length_pad]
  split
  · rename_i cut
    have dots : "...".length = 3 := rfl
    have room := room cut
    rw [String.length_append, String.length_ofList, List.length_take, String.length_toList, dots]
    omega
  · omega

theorem le_foldl_max {α : Type} (size : α → Nat) (items : List α) (least : Nat) :
    least ≤ items.foldl (fun width item => max width (size item)) least ∧
      ∀ item ∈ items, size item ≤ items.foldl (fun width item => max width (size item)) least := by
  induction items generalizing least with
  | nil => exact ⟨Nat.le_refl _, List.forall_mem_nil _⟩
  | cons first items ih =>
    obtain ⟨start, each⟩ := ih (max least (size first))
    exact ⟨(Nat.le_max_left _ _).trans start,
      List.forall_mem_cons.mpr ⟨(Nat.le_max_right _ _).trans start, each⟩⟩

variable {columns : List String} {rows : List (Entries Value)} {row : Entries Value}

theorem columnWidth_le (rows : List (Entries Value)) (column : String) :
    columnWidth rows column ≤ widestColumn := Nat.min_le_right _ _

/-- Only a column of the greatest width has cells that do not fit. -/
theorem eq_widest_of_lt {column : String} (member : row ∈ rows)
    (cut : columnWidth rows column < (cellAt row column).length) :
    columnWidth rows column = widestColumn := by
  have fits :=
    (le_foldl_max (fun row => (cellAt row column).length) rows column.length).2 row member
  unfold columnWidth at cut ⊢
  omega

theorem length_cell (member : row ∈ rows) (column : String) :
    (rowCell (columnWidth rows column) (cellAt row column)).length = columnWidth rows column := by
  refine length_rowCell fun cut => ?_
  rw [eq_widest_of_lt member cut]
  decide

/-! ## Lines -/

/-- The length of the lines of a table. -/
def lineWidth (columns : List String) (rows : List (Entries Value)) : Nat :=
  (columns.map (columnWidth rows)).sum + 3 * (columns.length - 1)

/-- The line of the names of the columns. -/
def headerLine (columns : List String) (rows : List (Entries Value)) : String :=
  Text.join " | " (columns.map fun column => headerCell (columnWidth rows column) column)

/-- The line below the header. -/
def ruleLine (columns : List String) (rows : List (Entries Value)) : String :=
  String.ofList (List.replicate (lineWidth columns rows) '-')

/-- The line of a row. -/
def rowLine (columns : List String) (rows : List (Entries Value)) (row : Entries Value) : String :=
  Text.join " | " (columns.map fun column =>
    rowCell (columnWidth rows column) (cellAt row column))

theorem length_line {shown : String → String}
    (fits : ∀ column ∈ columns, (shown column).length = columnWidth rows column) :
    (Text.join " | " (columns.map shown)).length = lineWidth columns rows := by
  have separator : " | ".length = 3 := rfl
  have widths : columns.map (String.length ∘ shown) = columns.map (columnWidth rows) :=
    List.map_congr_left fits
  rw [length_join, List.length_map, List.map_map, separator, widths]
  rfl

theorem length_headerLine (columns : List String) (rows : List (Entries Value)) :
    (headerLine columns rows).length = lineWidth columns rows :=
  length_line fun _ _ => length_headerCell _ _

theorem lines_eq (columns : List String) (rows : List (Entries Value)) : lines columns rows =
    headerLine columns rows :: ruleLine columns rows :: rows.map (rowLine columns rows) := by
  unfold ruleLine
  rw [← length_headerLine]
  unfold lines headerLine rowLine
  simp only [List.map_map]
  rfl

theorem isPrintable_rowLine (columns : List String) (rows : List (Entries Value))
    (row : Entries Value) : IsPrintable (rowLine columns rows row) := by
  refine isPrintable_join (by decide) fun shown member => ?_
  obtain ⟨column, -, rfl⟩ := List.mem_map.mp member
  have text : IsPrintable (cellAt row column) := isPrintable_cell standard _
  unfold rowCell pad
  refine IsPrintable.append ?_ (isPrintable_ofList fun c space => ?_)
  · split
    · exact (text.sublist (List.take_sublist _ _)).append (by decide)
    · exact text
  · rw [List.eq_of_mem_replicate space]
    decide

/-- **Tables are aligned.** The header, the rule and the lines of the rows have one length, that of
the columns and the separators between them. No column is wider than forty characters, every cell is
as wide as its column, and no value breaks its line. -/
theorem render_aligned (columns : List String) {message : Option String}
    (silent : message.getD "" = "") (filled : rows ≠ []) :
    render columns rows message = unlines
        (headerLine columns rows :: ruleLine columns rows :: rows.map (rowLine columns rows) ++
          ["", countLine rows.length]) ∧
      (∀ line ∈ headerLine columns rows :: ruleLine columns rows :: rows.map (rowLine columns rows),
        line.length = lineWidth columns rows) ∧
      (∀ column ∈ columns, columnWidth rows column ≤ 40) ∧
      (∀ row ∈ rows, ∀ column ∈ columns,
        (rowCell (columnWidth rows column) (cellAt row column)).length =
          columnWidth rows column) ∧
      ∀ row ∈ rows, ∀ c ∈ (rowLine columns rows row).toList, Text.isLineBreak c = false := by
  refine ⟨?_, ?_, fun column _ => columnWidth_le rows column,
    fun row member column _ => length_cell member column,
    fun row _ c member =>
      Text.isLineBreak_of_isPrintable ((isPrintable_rowLine columns rows row).of_mem c member)⟩
  · have table : render.table columns rows =
        unlines (lines columns rows ++ ["", countLine rows.length]) :=
      if_neg (by rw [List.isEmpty_iff]; exact filled)
    rw [lines_eq] at table
    cases message with
    | none => exact table
    | some text =>
      cases silent
      exact table
  · have rule : (ruleLine columns rows).length = lineWidth columns rows := by
      rw [ruleLine, String.length_ofList, List.length_replicate]
    have each : ∀ line ∈ rows.map (rowLine columns rows),
        line.length = lineWidth columns rows := by
      intro line member
      obtain ⟨row, inside, rfl⟩ := List.mem_map.mp member
      exact length_line fun column _ => length_cell inside column
    exact List.forall_mem_cons.mpr ⟨length_headerLine columns rows,
      List.forall_mem_cons.mpr ⟨rule, each⟩⟩

/-- A row whose text has two lines, in a column that is wider than its name. -/
theorem render_aligned_of_lineFeed :
    (rowLine ["note"] [[(.str "note", .str "two\nlines")]]
        [(.str "note", .str "two\nlines")]).length =
      lineWidth ["note"] [[(.str "note", .str "two\nlines")]] ∧
    ∀ c ∈ (rowLine ["note"] [[(.str "note", .str "two\nlines")]]
        [(.str "note", .str "two\nlines")]).toList, Text.isLineBreak c = false := by
  have silent : (none : Option String).getD "" = "" := rfl
  obtain ⟨-, aligned, -, -, unbroken⟩ := render_aligned ["note"] silent
    (List.cons_ne_nil [(Value.str "note", Value.str "two\nlines")] [])
  have row : [(Value.str "note", Value.str "two\nlines")] ∈
      [[(Value.str "note", Value.str "two\nlines")]] := List.mem_cons_self
  exact ⟨aligned _ (List.mem_cons_of_mem _ (List.mem_cons_of_mem _ (List.mem_map_of_mem row))),
    unbroken _ row⟩

end RecordQuery.Table
