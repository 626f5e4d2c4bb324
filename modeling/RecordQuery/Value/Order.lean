import RecordQuery.Value.Equality

/-!
# Order of values

Numbers, truth values and decimals are ordered by exact value, texts by code points, lists and tuples
at the first place where they are not the same, sets by inclusion. Any other two values are without
order, and a sequence is without order where its deciding items are.
-/

namespace RecordQuery.Value

/-- The order of two sets by inclusion. -/
def compareSets? (xs ys : List Value) : Option Ordering :=
  match allWithin xs ys, allWithin ys xs with
  | true, true => some .eq
  | true, false => some .lt
  | false, true => some .gt
  | false, false => none

mutual
/-- The order of two values, if they have one. -/
def compare? : Value → Value → Option Ordering
  | .bool b, w => w.quantity?.bind (Quantity.compare? (.numeric (.truth b)))
  | .int n, w => w.quantity?.bind (Quantity.compare? (.numeric (.int n)))
  | .float x, w => w.quantity?.bind (Quantity.compare? (.numeric (.float x)))
  | .decimal negative d, w => w.quantity?.bind (Quantity.compare? (.decimal negative d))
  | .str s, w => match w with
    | .str t => some (compare s t)
    | _ => none
  | .list xs, w => match w with
    | .list ys => compareAll? xs ys
    | _ => none
  | .tuple xs, w => match w with
    | .tuple ys => compareAll? xs ys
    | _ => none
  | .set xs, w => match w with
    | .set ys => compareSets? xs ys
    | _ => none
  | .null, _ => none
  | .map _, _ => none
  | .object _ _, _ => none
  | .direction _, _ => none
  | .sortKey _, _ => none
termination_by structural v => v

/-- The order of two sequences: the first items that are not the same decide, then the lengths. -/
def compareAll? : List Value → List Value → Option Ordering
  | [], [] => some .eq
  | [], _ :: _ => some .lt
  | _ :: _, [] => some .gt
  | x :: xs, y :: ys => if isSame x y then compareAll? xs ys else compare? x y
termination_by structural v => v
end

end RecordQuery.Value
