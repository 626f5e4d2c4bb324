import RecordQuery.Path
import RecordQuery.Value.Text

/-!
# Composite keys

A key is a list of parts, compared part by part, a shorter key before its extensions. Any value
becomes a part: missing values come first, then numbers and truth values by exact value, then all
else by its text.
-/

namespace RecordQuery

/-- One ordered component of a key. -/
inductive KeyPart where
  | missing
  | number (n : Numeric)
  | text (s : String)
  deriving DecidableEq, Repr, Inhabited

namespace KeyPart

/-- The part that a value becomes. -/
def ofValue (v : Value) : KeyPart :=
  match v with
  | .null => .missing
  | v => match v.numeric? with
    | some n => .number n
    | none => .text v.text

/-- The order of parts; two numbers without order tie. -/
def compare : KeyPart → KeyPart → Ordering
  | .missing, .missing => .eq
  | .missing, _ => .lt
  | .number _, .missing => .gt
  | .number a, .number b => (a.compare? b).getD .eq
  | .number _, .text _ => .lt
  | .text a, .text b => Ord.compare a b
  | .text _, _ => .gt

end KeyPart

/-- A composite key. -/
abbrev Key := List KeyPart

namespace Key

/-- The order of keys: the first parts that differ decide, then the lengths. -/
def compare : Key → Key → Ordering
  | [], [] => .eq
  | [], _ :: _ => .lt
  | _ :: _, [] => .gt
  | a :: as, b :: bs => (a.compare b).then (compare as bs)

end Key

namespace Value

/-- The components that a key argument gives: none for null, the items of a list or tuple, and the
value itself otherwise. -/
def keyItems : Value → List Value
  | .null => []
  | .list items => items
  | .tuple items => items
  | v => [v]

/-- The key that a key argument stands for. -/
def toKey (v : Value) : Key := v.keyItems.map KeyPart.ofValue

end Value

end RecordQuery
