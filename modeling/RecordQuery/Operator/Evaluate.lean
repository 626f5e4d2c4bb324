import RecordQuery.Operator.Like
import RecordQuery.Text.Numeral
import RecordQuery.Value.Order
import RecordQuery.Value.Text

/-!
# The meaning of operators

An operator is applied to a record's value and the value of a clause. Every operator answers yes or
no on all values: what cannot be compared is not in order, and what has no members contains nothing.
-/

namespace RecordQuery.Value

/-- Whether a number equals the one that a text spells. -/
def equalsSpelled (n : Numeric) (s : String) : Bool :=
  match Text.readBinary64? s with
  | some x => n.equals (.float x)
  | none => false

/-- Equality that also lets a number equal the text that spells it. -/
def looselyEquals (a b : Value) : Bool :=
  a.equals b ||
    match a.number?, b.number?, a, b with
    | some n, _, _, .str s => equalsSpelled n s
    | _, some n, .str s, _ => equalsSpelled n s
    | _, _, _, _ => false

/-- Whether two values are of one kind. -/
def sameKind : Value → Value → Bool
  | .null, .null | .bool _, .bool _ | .int _, .int _ | .float _, .float _ => true
  | .decimal _ _, .decimal _ _ => true
  | .str _, .str _ | .list _, .list _ | .tuple _, .tuple _ | .set _, .set _ => true
  | .map _, .map _ | .object _ _, .object _ _ => true
  | .direction _, .direction _ | .sortKey _, .sortKey _ => true
  | _, _ => false

/-- Equality of values of one kind, where all numbers proper are of one kind. -/
def strictlyEquals (a b : Value) : Bool :=
  ((a.isNumber && b.isNumber) || sameKind a b) && a.equals b

/-- The items of a collection; null has none and any other value is its only item. -/
def asItems : Value → List Value
  | .null => []
  | .list items | .tuple items | .set items => items
  | v => [v]

/-- Whether two values have an item in common. -/
def intersects (a b : Value) : Bool :=
  a.asItems.any fun item => item.memberOf b.asItems

/-- Whether a text occurs in another one. -/
def occursIn (part : List Char) : List Char → Bool
  | [] => part.isEmpty
  | c :: rest => part.isPrefixOf (c :: rest) || occursIn part rest

/-- Whether a value is a member of another one: an item, a key, or a part of a text. What cannot be
a key is in no mapping and no set. -/
def isMember (needle haystack : Value) : Bool :=
  match haystack with
  | .str s => match needle with
    | .str part => occursIn part.toList s.toList
    | _ => false
  | .list items | .tuple items => needle.memberOf items
  | .set items => needle.unkeyable?.isNone && needle.memberOf items
  | .map entries => needle.unkeyable?.isNone && Entries.hasKey entries needle
  | _ => false

/-- Whether the plain text of a value matches a pattern's text; null matches nothing. -/
def matchesLike (flags : LikeFlags) (pattern v : Value) : Bool :=
  match v with
  | .null => false
  | v => flags.textMatches (LikeItem.ofText pattern.text) v.text.toList

end RecordQuery.Value

namespace RecordQuery.Operator

open Value

/-- Applies an operator to a record's value and the value of a clause. -/
def evaluate (operator : Operator) (value wanted : Value) : Bool :=
  match operator.kind with
  | .equal => looselyEquals value wanted
  | .strictEqual => strictlyEquals value wanted
  | .notEqual => !looselyEquals value wanted
  | .strictNotEqual => !strictlyEquals value wanted
  | .greater => value.compare? wanted == some .gt
  | .greaterOrEqual => (value.compare? wanted).any Ordering.isGE
  | .less => value.compare? wanted == some .lt
  | .lessOrEqual => (value.compare? wanted).any Ordering.isLE
  | .disjoint => !intersects value wanted
  | .intersects => intersects value wanted
  | .isIn => isMember value wanted
  | .notIn => !isMember value wanted
  | .contains => isMember wanted value
  | .notContains => !isMember wanted value
  | .like => matchesLike operator.flags wanted value
  | .notLike => !matchesLike operator.flags wanted value

end RecordQuery.Operator
