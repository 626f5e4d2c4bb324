/-!
# Errors of collections and queries

Each error names its cause; `message` is the one place where causes are worded. Errors of reading
statements and records have types of their own, beside what they read.
-/

namespace RecordQuery

/-- Why an operation on a collection or a query failed. Kinds are kinds of values. -/
inductive Error where
  /-- An index without fields. -/
  | noFields
  /-- A field name that is neither a text nor empty. -/
  | fieldNotText (kind : String)
  /-- Options that are neither a mapping nor empty, or clauses that are no mapping. -/
  | optionsNotMapping (kind : String)
  /-- A named option of a reserved name. -/
  | reservedOption (name : String)
  /-- Records that are no sequence. -/
  | notIterable (kind : String)
  /-- An index name that cannot be a key. -/
  | unkeyable (kind : String)
  /-- An attribute name that is no text. -/
  | attributeNotText (kind : String)
  /-- A position in a sequence that is neither a text nor a number. -/
  | positionNotNumber (kind : String)
  /-- An infinite position in a sequence. -/
  | infinitePosition
  /-- A count that is not a number. -/
  | countNotNumber (operation kind : String)
  /-- A function to be called that is none. -/
  | notCallable (kind : String)
  /-- A context for a function that is none. -/
  | contextNotBindable
  /-- A filter that is neither a mapping nor a function. -/
  | filterNotUsable (kind : String)
  /-- An index name that the collection lacks. -/
  | unknownIndex (name : String)
  /-- A retrieval on a query that already holds records. -/
  | alreadyRetrieved
  /-- What a supplied function or the code of a record failed with. -/
  | callback (reason : String)
  deriving DecidableEq, Repr, Inhabited

namespace Error

/-- The wording of an error. -/
def message : Error → String
  | .noFields => "An index needs at least one field"
  | .fieldNotText kind => "'" ++ kind ++ "' object has no attribute 'split'"
  | .optionsNotMapping kind => "'" ++ kind ++ "' object has no attribute 'items'"
  | .reservedOption name =>
    "QueryOptions.from_mapping() got multiple values for argument '" ++ name ++ "'"
  | .notIterable kind => "'" ++ kind ++ "' object is not iterable"
  | .unkeyable kind => "unhashable type: '" ++ kind ++ "'"
  | .attributeNotText kind => "attribute name must be string, not '" ++ kind ++ "'"
  | .positionNotNumber kind =>
    "int() argument must be a string, a bytes-like object or a real number, not '" ++ kind ++ "'"
  | .infinitePosition => "cannot convert float infinity to integer"
  | .countNotNumber operation kind =>
    operation ++ ": Expected number but found " ++ kind ++ "!"
  | .notCallable kind => "'" ++ kind ++ "' object is not callable"
  | .contextNotBindable => "the first argument must be callable"
  | .filterNotUsable kind => "filter: Expected mapping or callable but found " ++ kind ++ "!"
  | .unknownIndex name => "Unknown index: " ++ name
  | .alreadyRetrieved => "Cannot access index after first operation!"
  | .callback reason => reason

end Error

end RecordQuery
