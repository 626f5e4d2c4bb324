import RecordQuery.Error
import RecordQuery.Value.Equality

/-!
# Options of a retrieval

Options come as a mapping and as named values, which override it. They choose an index, say whether
the boundaries of a range belong to it, and page the range. Two options have a second spelling, and
unknown names are kept aside.
-/

namespace RecordQuery

/-- The options of a retrieval. -/
structure Options where
  /-- The name of a secondary index; null for the primary one. -/
  index : Value
  leftInclusive : Bool
  rightInclusive : Bool
  offset : Value
  limit : Value
  /-- The options of unknown name. -/
  extra : Entries Value
  deriving Inhabited

namespace Options

/-- The name of an option under its first spelling. -/
def canonicalName (name : Value) : Value :=
  match name with
  | .str "leftInclusive" => .str "left_inclusive"
  | .str "rightInclusive" => .str "right_inclusive"
  | name => name

/-- The names of the options that have a meaning. -/
def knownNames : List Value :=
  [.str "index", .str "left_inclusive", .str "right_inclusive", .str "offset", .str "limit"]

/-- All options under their first spelling, a later one overriding an earlier one of its name. -/
def merge (sources : List (Entries Value)) : Entries Value :=
  .ofPairs (sources.flatten.map fun option => (canonicalName option.1, option.2))

/-- An inclusivity as given, unless it is missing or null. -/
def inclusivity (merged : Entries Value) (name : String) (otherwise : Bool) : Bool :=
  match merged.find? (.str name) with
  | none | some .null => otherwise
  | some v => v.isTruthy

/-- The options that merged names and values stand for. -/
def ofEntries (merged : Entries Value) : Options where
  index := match merged.find? (.str "index") with
    | some name => if name.isTruthy then name else .null
    | none => .null
  leftInclusive := inclusivity merged "left_inclusive" true
  rightInclusive := inclusivity merged "right_inclusive" false
  offset := .ofOption (merged.find? (.str "offset"))
  limit := .ofOption (merged.find? (.str "limit"))
  extra := merged.filter fun option => !option.1.memberOf knownNames

/-- The entries of options given by a value, where an empty value gives none. -/
def entriesOf : Value → Except Error (Entries Value)
  | .map entries => .ok entries
  | v => if v.isTruthy then .error (.optionsNotMapping v.kindName) else .ok []

/-- The names that no named value may have, since they are those of the mapping and of the kind of
options to make. -/
def reservedNames : List String := ["cls", "opts"]

/-- The first reserved name among named values. -/
def reserved? (named : Entries Value) : Option String :=
  named.findSome? fun option => match option.1 with
    | .str name => if name ∈ reservedNames then some name else none
    | _ => none

/-- The options given by a value and by named values, none of which may have a reserved name. -/
def ofValue (options : Value) (named : Entries Value) : Except Error Options :=
  match reserved? named with
  | some name => .error (.reservedOption name)
  | none => (entriesOf options).map fun entries => ofEntries (merge [entries, named])

end Options

end RecordQuery
