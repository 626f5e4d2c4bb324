import RecordQuery.Value.Basic

/-!
# Equality and sameness of values

Two values are the same if they are equal or one and the same not-a-number; sameness is an
equivalence. It is what compares the items of containers and the keys of mappings: lists and tuples
are the same item by item and never each other, sets and mappings when each holds what the other
holds, in any order, and objects by identity. Numbers, truth values and decimals are the same by
exact value.
Equality differs at one place only: not-a-number equals nothing.
-/

namespace RecordQuery.Value

mutual
/-- Whether two values are the same. -/
def isSame : Value → Value → Bool
  | .null, w => match w with
    | .null => true
    | _ => false
  | .bool b, w => match w.quantity? with
    | some y => Quantity.isSame (.numeric (.truth b)) y
    | none => false
  | .int n, w => match w.quantity? with
    | some y => Quantity.isSame (.numeric (.int n)) y
    | none => false
  | .float x, w => match w.quantity? with
    | some y => Quantity.isSame (.numeric (.float x)) y
    | none => false
  | .decimal negative d, w => match w.quantity? with
    | some y => Quantity.isSame (.decimal negative d) y
    | none => false
  | .str s, w => match w with
    | .str t => s == t
    | _ => false
  | .list xs, w => match w with
    | .list ys => areSame xs ys
    | _ => false
  | .tuple xs, w => match w with
    | .tuple ys => areSame xs ys
    | _ => false
  | .set xs, w => match w with
    | .set ys => allWithin xs ys && ys.all (fun y => anySame xs y)
    | _ => false
  | .map es, w => match w with
    | .map fs => allEntriesWithin es fs && fs.all (fun f => anyEntrySame es f)
    | _ => false
  | .object identity _, w => match w with
    | .object other _ => identity == other
    | _ => false
  | .direction d, w => match w with
    | .direction e => d == e
    | _ => false
  | .sortKey k, w => match w with
    | .sortKey l => k == l
    | _ => false
termination_by structural v => v

/-- Whether two lists are the same item by item. -/
def areSame : List Value → List Value → Bool
  | [], [] => true
  | x :: xs, y :: ys => isSame x y && areSame xs ys
  | _, _ => false
termination_by structural v => v

/-- Whether some item of the list is the same as the value. -/
def anySame : List Value → Value → Bool
  | [], _ => false
  | x :: xs, y => isSame x y || anySame xs y
termination_by structural v => v

/-- Whether every item of the first list is the same as some item of the second. -/
def allWithin : List Value → List Value → Bool
  | [], _ => true
  | x :: xs, ys => ys.any (fun y => isSame x y) && allWithin xs ys
termination_by structural v => v

/-- Whether some entry of the list is the same as the given one in key and value. -/
def anyEntrySame : List (Value × Value) → Value × Value → Bool
  | [], _ => false
  | (k, v) :: es, f => (isSame k f.1 && isSame v f.2) || anyEntrySame es f
termination_by structural v => v

/-- Whether every entry of the first list is the same as some entry of the second. -/
def allEntriesWithin : List (Value × Value) → List (Value × Value) → Bool
  | [], _ => true
  | (k, v) :: es, fs =>
    fs.any (fun f => isSame k f.1 && isSame v f.2) && allEntriesWithin es fs
termination_by structural v => v
end

/-- Whether two values are equal: the same, and not not-a-number. -/
def equals (v w : Value) : Bool := v.isSame w && !v.isNaN

/-- Whether some item of the list is the same as the value. -/
def memberOf (v : Value) (items : List Value) : Bool := anySame items v

end RecordQuery.Value

namespace RecordQuery.Entries

variable {α : Type}

/-- What the mapping holds under a key. -/
def find? (entries : Entries α) (key : Value) : Option α :=
  (List.find? (fun entry => entry.1.isSame key) entries).map (·.2)

/-- Whether the mapping holds the key. -/
def hasKey (entries : Entries α) (key : Value) : Bool :=
  List.any entries fun entry => entry.1.isSame key

/-- The mapping with a key set: a key already there stays in place and takes the new value, a new
key goes to the end. -/
def put (entries : Entries α) (key : Value) (value : α) : Entries α :=
  if entries.hasKey key then
    List.map (fun entry => if entry.1.isSame key then (entry.1, value) else entry) entries
  else entries ++ [(key, value)]

/-- The mapping that holds the pairs, a later pair overriding an earlier one. -/
def ofPairs (pairs : List (Value × α)) : Entries α :=
  pairs.foldl (fun entries pair => entries.put pair.1 pair.2) []

end RecordQuery.Entries
