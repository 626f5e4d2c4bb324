import RecordQuery.Error
import RecordQuery.Text.Numeral
import RecordQuery.Text.Split
import RecordQuery.Value.Equality

/-!
# Paths into records

A dotted path names a place inside a record, segment by segment. A mapping is entered by key, a list
or tuple by the whole number that the segment spells, counted from the end if negative, and anything
else by attribute. What is missing is null, and nothing is found beyond null.
-/

namespace RecordQuery

/-- The segments of a dotted path. -/
abbrev Path := List String

/-- The segments of a dotted text; the empty text has none. -/
def Path.ofString (s : String) : Path :=
  if s.isEmpty then [] else Text.splitString '.' s

/-- The path that a field name stands for: an empty value names no place. -/
def Path.ofField (field : Value) : Except Error Path :=
  match field with
  | .str s => .ok (.ofString s)
  | v => if v.isTruthy then .error (.fieldNotText v.kindName) else .ok []

namespace Value

/-- The item at a position, counted from the end if negative. -/
def itemAt? (items : List Value) (n : Int) : Option Value :=
  if 0 ≤ n then items[n.toNat]?
  else if (-n).toNat ≤ items.length then items[items.length - (-n).toNat]?
  else none

/-- The attribute of a value that is no container: objects have their own, a number has its parts as
a complex number and as a fraction, and so have a direction and a sort key their parts. -/
def attribute? : Value → String → Option Value
  | .object _ attributes, name => attributes.lookup name
  | .bool b, name => ofInt (if b then 1 else 0) name
  | .int n, name => ofInt n name
  | .float x, name =>
    if name = "real" then some (.float x)
    else if name = "imag" then some (.float (.zero false))
    else none
  | .decimal negative d, name =>
    if name = "real" then some (.decimal negative d)
    else if name = "imag" then some (.decimal false ⟨0, 0⟩)
    else none
  | .direction d, name => if name = "name" ∨ name = "value" then some (.str d.word) else none
  | .sortKey key, name =>
    if name = "field" then some (.str key.field)
    else if name = "direction" then some (.direction key.direction)
    else none
  | _, _ => none
where
  /-- The attribute of a whole number. -/
  ofInt (n : Int) (name : String) : Option Value :=
    if name = "real" ∨ name = "numerator" then some (.int n)
    else if name = "imag" then some (.int 0)
    else if name = "denominator" then some (.int 1)
    else none

/-- One step into a value by a segment of text; null where there is nothing. -/
def enter (v : Value) (segment : String) : Value :=
  match v with
  | .map entries => ofOption (Entries.find? entries (.str segment))
  | .list items | .tuple items => ofOption ((Text.readInt? segment).bind (itemAt? items))
  | v => ofOption (v.attribute? segment)

/-- The value at a path of a record; the empty path is nowhere. -/
def lookup (record : Value) (path : Path) : Value :=
  if path.isEmpty then .null else path.foldl enter record

/-- The position in a sequence that a segment gives, if any: a text spells it, and a number is cut
toward zero. -/
def position? : Value → Except Error (Option Int)
  | .str s => .ok (Text.readInt? s)
  | .bool b => .ok (some (if b then 1 else 0))
  | .int n => .ok (some n)
  | .float (.nan _) => .ok none
  | .float (.infinite _) => .error .infinitePosition
  | .float (.finite negative m e) => .ok (some (Binary64.truncate negative m e))
  | .decimal negative d => .ok (some (d.truncate negative))
  | v => .error (.positionNotNumber v.kindName)

/-- One step into a value by a segment of any kind; only a text names an attribute. -/
def enterSegment (v segment : Value) : Except Error Value :=
  match v with
  | .null => .ok .null
  | .map entries => match segment.unkeyable? with
    | some kind => .error (.unkeyable kind)
    | none => .ok (ofOption (Entries.find? entries segment))
  | .list items | .tuple items =>
    segment.position?.map fun position => ofOption (position.bind (itemAt? items))
  | v => match segment with
    | .str name => .ok (ofOption (v.attribute? name))
    | segment => .error (.attributeNotText segment.kindName)

/-- The items that a value yields one by one: those of a sequence or a set, the characters of a
text, the keys of a mapping. -/
def iterated : Value → Except Error (List Value)
  | .list items | .tuple items | .set items => .ok items
  | .str s => .ok (s.toList.map fun c => .str c.toString)
  | .map entries => .ok (entries.map (·.1))
  | v => .error (.notIterable v.kindName)

/-- The value at an explicit path of a record, which is a dotted text or yields the segments; the
empty path is nowhere. -/
def lookupExplicit (record path : Value) : Except Error Value :=
  match path with
  | .str s => .ok (record.lookup (.ofString s))
  | path =>
    if path.isTruthy then path.iterated.bind fun segments => segments.foldlM enterSegment record
    else .ok .null

end Value

end RecordQuery
