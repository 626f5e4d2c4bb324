import RecordQuery.Operator.Evaluate
import RecordQuery.Path

/-!
# Clauses of filters

A filter's mapping from fields to operators and values is read into a list of clauses, in order of
declaration. A record is held against the clauses strictly from left to right, without precedence: a
clause restricts what went before, or widens it if its operator is written with a bar in front. A
clause with an unknown operator changes nothing.
-/

namespace RecordQuery

/-- One condition of a filter. -/
structure Clause where
  /-- The field as it was written. -/
  field : String
  /-- The place of the field in a record. -/
  path : Path
  /-- The operator's name, without a bar. -/
  name : String
  /-- The operator, if the name stands for one. -/
  operator : Option Operator
  /-- The value to compare with. -/
  value : Value
  /-- Whether the clause widens the result so far. -/
  isOr : Bool

namespace Clause

/-- Whether the clause matches a pattern. -/
def hasPattern (clause : Clause) : Bool :=
  clause.operator.any fun operator => operator.kind.isPattern

/-- An operator's written name as the name proper and whether a bar stands before it. -/
def splitName (written : String) : String × Bool :=
  match written.toList with
  | '|' :: name => (String.ofList name, true)
  | _ => (written, false)

/-- The clause of a field, an operator's written name and a value. -/
def ofParts (field written : String) (value : Value) : Clause :=
  let (name, isOr) := splitName written
  { field, path := .ofString field, name, operator := Operator.ofName? name, value, isOr }

/-- The operators and values asked of one field; a value that is no mapping asks for equality. -/
def operatorEntries : Value → Entries Value
  | .map entries => entries
  | v => [(.str "==", v)]

/-- The clauses of a mapping from fields to what is asked of them. -/
def ofEntries (entries : Entries Value) : List Clause :=
  entries.flatMap fun (field, asked) =>
    (operatorEntries asked).map fun (name, value) => ofParts field.text name.text value

/-- The clauses of a value, which has to be a mapping. -/
def ofValue : Value → Except Error (List Clause)
  | .map entries => .ok (ofEntries entries)
  | v => .error (.optionsNotMapping v.kindName)

/-- What a clause says of a record; nothing if its operator is unknown. -/
def verdict? (record : Value) (clause : Clause) : Option Bool :=
  clause.operator.map fun operator => operator.evaluate (record.lookup clause.path) clause.value

/-- The result so far joined with the verdict of a clause that is not the first. -/
def join (record : Value) (keep : Bool) (clause : Clause) : Bool :=
  match clause.verdict? record with
  | none => keep
  | some verdict => if clause.isOr then keep || verdict else keep && verdict

/-- Whether a record passes the clauses: the first one starts, and each further one joins. -/
def passes (record : Value) : List Clause → Bool
  | [] => true
  | first :: rest => rest.foldl (join record) ((first.verdict? record).getD true)

end Clause

end RecordQuery
