import RecordQuery.BinarySearch
import RecordQuery.Key
import RecordQuery.Options
import RecordQuery.Paging

/-!
# Sorted indexes

An index keeps its records sorted by a composite key of one or more fields; records of one key stand
in the order of their ids, then in the order of insertion. What the records are sorted by stands in a
list of its own, beside the records. Looking up by a key that is shorter than the field list matches
on the leading parts.

A record may bring code of its own, which runs when the record is read and when text is made of what
is found there. What it raises comes before the index is changed.
-/

namespace RecordQuery

/-- What the code of records raises: when a record is read at a path, and when text is made of a
value. -/
structure RecordCode where
  reading : Value → Path → Option Error
  wording : Value → Option Error

namespace RecordCode

/-- Data brings no code and raises nothing. -/
def quiet : RecordCode := ⟨fun _ _ => none, fun _ => none⟩

/-- What raises when a record is read at a path; the empty path is not read. -/
def readFault? (code : RecordCode) (record : Value) (path : Path) : Option Error :=
  if path.isEmpty then none else code.reading record path

/-- What raises when a value becomes a part of a key; only text parts are made. -/
def partFault? (code : RecordCode) (v : Value) : Option Error :=
  match KeyPart.ofValue v with
  | .text _ => code.wording v
  | _ => none

end RecordCode

/-- The code of records at each insertion of a call: what raises once need not do so again. -/
abbrev CallCode := Nat → RecordCode

/-- Data raises nothing at any insertion. -/
def CallCode.quiet : CallCode := fun _ => .quiet

/-- What a record is sorted by. -/
structure Index.Entry where
  key : Key
  idPart : KeyPart
  /-- How many records were inserted before this one. -/
  serial : Nat
  deriving DecidableEq, Repr

/-- The order of entries: by key, then by id, then by insertion. -/
def Index.Entry.compare (a b : Index.Entry) : Ordering :=
  (Key.compare a.key b.key).then ((a.idPart.compare b.idPart).then (Ord.compare a.serial b.serial))

/-- An index over some fields. -/
structure Index where
  /-- The fields as they were given. -/
  fields : List Value
  /-- The place of each field in a record. -/
  paths : List Path
  /-- The place of the id in a record. -/
  idPath : Path
  /-- What the records are sorted by, in order. -/
  entries : List Index.Entry
  /-- The records, each at the position of its entry. -/
  records : List Value
  /-- How many records were inserted so far. -/
  nextSerial : Nat

namespace Index

/-- An empty index over the fields that a value lists; a single field need not be listed. -/
def create (fields idField : Value) : Except Error Index := do
  let fields := fields.keyItems
  if fields.isEmpty then throw .noFields
  let paths ← fields.mapM Path.ofField
  let idPath ← Path.ofField idField
  return { fields, paths, idPath, entries := [], records := [], nextSerial := 0 }

/-- How many records the index holds. -/
def size (index : Index) : Nat := index.records.length

/-- The values of a record that make its key. -/
def keyValues (index : Index) (record : Value) : List Value :=
  index.paths.map record.lookup

/-- The key of a record. -/
def keyOf (index : Index) (record : Value) : Key :=
  (Value.list (index.keyValues record)).toKey

/-- What the id of a record is sorted by. -/
def idPartOf (index : Index) (record : Value) : KeyPart :=
  .ofValue (record.lookup index.idPath)

/-- The entry of a record under a serial number. -/
def entryFor (index : Index) (record : Value) (serial : Nat) : Entry where
  key := index.keyOf record
  idPart := index.idPartOf record
  serial := serial

/-- The index with one more record, placed after all that do not come after it. -/
def insert (index : Index) (record : Value) : Index :=
  let entry := index.entryFor record index.nextSerial
  let position := BinarySearch.upperBound (fun e => e.compare entry) index.entries
  { index with
    entries := index.entries.insertIdx position entry
    records := index.records.insertIdx position record
    nextSerial := index.nextSerial + 1 }

/-- The index with more records. -/
def insertAll (index : Index) (records : List Value) : Index :=
  records.foldl insert index

/-- What raises when the entry of a record is made: the fields are read and then made parts of a key,
and so is the id. -/
def fault? (index : Index) (code : RecordCode) (record : Value) : Option Error :=
  let key := (index.paths.findSome? (code.readFault? record)).or
    ((index.keyValues record).findSome? code.partFault?)
  key.or ((code.readFault? record index.idPath).or (code.partFault? (record.lookup index.idPath)))

/-- The index with one more record, unless its code raises. -/
def tryInsert (index : Index) (code : RecordCode) (record : Value) : Except Error Index :=
  match index.fault? code record with
  | some e => .error e
  | none => .ok (index.insert record)

/-- The index with more records, inserted one after the other; `turn` counts the insertions of a call
before them. -/
def tryInsertAll (index : Index) (code : CallCode) (turn : Nat) : List Value → Except Error Index
  | [] => .ok index
  | record :: rest => do
    let grown ← index.tryInsert (code turn) record
    grown.tryInsertAll code (turn + 1) rest

/-- All records in the order of the index. -/
def toList (index : Index) : List Value := index.records

/-- How the leading parts of an entry's key compare with a boundary key. -/
def compareLeading (entry : Entry) (boundary : Key) : Ordering :=
  Key.compare (entry.key.take boundary.length) boundary

/-- The position of the first entry that a boundary does not lie after; if `past` holds, that of the
first entry that lies after the boundary. -/
def bound (index : Index) (boundary : Key) (past : Bool) : Nat :=
  let find := if past then BinarySearch.upperBound else BinarySearch.lowerBound
  find (fun entry => compareLeading entry boundary) index.entries

/-- The records from one position up to another. -/
def slice (index : Index) (start stop : Nat) : List Value :=
  (index.records.take stop).drop start

/-- The records whose key begins with the given one. -/
def get (index : Index) (key : Value) : List Value :=
  index.slice (index.bound key.toKey false) (index.bound key.toKey true)

/-- The records between two boundaries, then paged; the options say which boundaries belong. -/
def between (index : Index) (left right : Value) (options : Options) : List Value :=
  let start := index.bound left.toKey (!options.leftInclusive)
  let stop := index.bound right.toKey options.rightInclusive
  if stop ≤ start then []
  else options.limit.limitIfNumber (options.offset.skipIfNumber (index.slice start stop))

end Index

end RecordQuery
