import RecordQuery.Collection
import RecordQuery.Json
import RecordQuery.Script
import RecordQuery.Shell.Fault

/-!
# Record files

A record file is a JSON array, or one JSON text per line if its name says so. Its records are loaded
into a collection, together with the secondary indexes that specifications ask for.
-/

namespace RecordQuery.Shell.RecordFile

/-- The suffix of the names of files with one record per line. -/
def linesSuffix : String := ".jsonl"

/-- Reads one record from every line that is not blank. -/
def readLines (text : List Char) : Except String (List Value) :=
  ((Text.lines text).filter fun line => !(Text.strip line).isEmpty).mapM Json.read

/-- Reads the records of a file of a name. -/
def readRecords (name : FileName) (text : List Char) : Except String (List Value) :=
  if name.suffix = linesSuffix then readLines text
  else match Json.read text with
    | .error message => .error message
    | .ok (.list records) => .ok records
    | .ok _ => .error ("Expected a JSON array of records in " ++ name.text)

/-- Why no collection was loaded: the wording of what is wrong, or a fault. -/
inductive Failure where
  | reported (message : String)
  | broken (fault : Fault)
  deriving DecidableEq, Repr, Inhabited

/-- The collection with the index that a specification asks for. -/
def addIndex (collection : Collection) : Option String → Except Failure Collection
  | none => .error (.broken .noSpecification)
  | some spec => match IndexSpec.ofText? spec with
    | none => .error (.reported (IndexSpec.refusal spec))
    | some ⟨name, fields⟩ =>
      (collection.createIndex (.str name) (.list (fields.map .str))).mapError fun e =>
        .reported e.message

/-- The field that identifies records: one of the given name, or an empty list for no name. -/
def idFieldOf : Option String → Value
  | some name => .str name
  | none => .list []

/-- The collection of the records in a text, with the indexes asked for. -/
def load (name : FileName) (text : String) (idField : Option String)
    (specs : List (Option String)) : Except Failure Collection := do
  let records ← (readRecords name (Text.unifyNewlines text.toList)).mapError Failure.reported
  let collection ← (Collection.create (.list records) (idFieldOf idField) .null).mapError fun e =>
    Failure.reported e.message
  specs.foldlM addIndex collection

end RecordQuery.Shell.RecordFile
