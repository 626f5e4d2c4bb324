import RecordQuery.Index

/-!
# Collections

A collection holds its records in a primary index and in any number of named secondary ones. Every
record that is added goes to all of them, one index after the other, and a new secondary index takes
over the records present. What is inserted before something raises stays inserted.
-/

namespace RecordQuery

/-- A collection of records. -/
structure Collection where
  /-- The field that identifies a record and orders records of one key. -/
  idField : Value
  /-- The index that holds all records. -/
  primary : Index
  /-- The secondary indexes by name, in order of creation. -/
  secondary : Entries Index

namespace Collection

/-- Inserts a record into indexes one after the other, up to one at which its code raises; `turn`
counts the insertions of the call before these. -/
def insertIntoEach (code : CallCode) (turn : Nat) (record : Value) :
    Entries Index → Entries Index × Option Error
  | [] => ([], none)
  | (name, index) :: rest =>
    match index.tryInsert (code turn) record with
    | .error e => ((name, index) :: rest, some e)
    | .ok grown =>
      let (others, failure?) := insertIntoEach code (turn + 1) record rest
      ((name, grown) :: others, failure?)

/-- Inserts a record into the primary index, then into the secondary ones. -/
def take (code : CallCode) (turn : Nat) (collection : Collection) (record : Value) :
    Collection × Option Error :=
  match collection.primary.tryInsert (code turn) record with
  | .error e => (collection, some e)
  | .ok primary =>
    let (secondary, failure?) := insertIntoEach code (turn + 1) record collection.secondary
    ({ collection with primary, secondary }, failure?)

/-- Takes records one after the other, up to one at which its code raises. -/
def takeAll (code : CallCode) (turn : Nat) (collection : Collection) :
    List Value → Collection × Option Error
  | [] => (collection, none)
  | record :: rest =>
    match collection.take code turn record with
    | (broken, some e) => (broken, some e)
    | (next, none) => next.takeAll code (turn + 1 + collection.secondary.length) rest

end Collection

/-- What a call is given to add: the records that come one by one, and what raises after them. -/
structure Supply where
  records : List Value
  failure? : Option Error

/-- The records that a value yields, or what raises in their place. -/
def Supply.ofValue (v : Value) : Supply :=
  match v.iterated with
  | .ok records => ⟨records, none⟩
  | .error e => ⟨[], some e⟩

namespace Collection

/-- Adds the records of a supply. -/
def load (code : CallCode) (collection : Collection) (supply : Supply) :
    Collection × Option Error :=
  match collection.takeAll code 0 supply.records with
  | (broken, some e) => (broken, some e)
  | (loaded, none) => (loaded, supply.failure?)

/-- A collection without records; the primary index is over the given fields, or over the id field
if they are missing. -/
def empty (idField indexFields : Value) : Except Error Collection := do
  let fields := if indexFields.isTruthy then indexFields else .list [idField]
  let primary ← Index.create fields idField
  return { idField, primary, secondary := [] }

/-- A collection over the records of a supply, or without records if there is none. -/
def createFrom (code : CallCode) (supply? : Option Supply) (idField indexFields : Value) :
    Except Error Collection := do
  let collection ← empty idField indexFields
  match supply? with
  | none => return collection
  | some supply => match collection.load code supply with
    | (_, some e) => throw e
    | (loaded, none) => return loaded

/-- A collection over the records that a value yields, or without records for null. -/
def create (records idField indexFields : Value) : Except Error Collection :=
  let supply? := match records with
    | .null => none
    | records => some (.ofValue records)
  createFrom .quiet supply? idField indexFields

/-- The collection with a secondary index over the given fields, or over the field of its own name
if they are null. An index of that name is replaced. -/
def createIndexFrom (code : CallCode) (collection : Collection) (name fields : Value) :
    Except Error Collection := do
  let fields := match fields with
    | .null => .list [name]
    | fields => fields
  let index ← Index.create fields collection.idField
  let filled ← index.tryInsertAll code 0 collection.primary.toList
  match name.unkeyable? with
  | some kind => throw (.unkeyable kind)
  | none => return { collection with secondary := collection.secondary.put name filled }

/-- The collection with a secondary index over records that are data. -/
def createIndex (collection : Collection) (name fields : Value) : Except Error Collection :=
  collection.createIndexFrom .quiet name fields

/-- How many records the collection holds. -/
def size (collection : Collection) : Nat := collection.primary.size

/-- The index that options choose. -/
def select (collection : Collection) (options : Options) : Except Error Index :=
  if !options.index.isTruthy then .ok collection.primary
  else match options.index.unkeyable? with
    | some kind => .error (.unkeyable kind)
    | none => match collection.secondary.find? options.index with
      | some index => .ok index
      | none => .error (.unknownIndex options.index.text)

end Collection

end RecordQuery
