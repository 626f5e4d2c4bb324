/-!
# Operators of filters

The operators form a closed set. Two of them match patterns and take flags after their name; every
other name stands for one operator, and an unknown name for none.
-/

namespace RecordQuery

/-- What an operator asks of a record's value and the clause's value. -/
inductive OperatorKind where
  | equal
  | strictEqual
  | notEqual
  | strictNotEqual
  | greater
  | greaterOrEqual
  | less
  | lessOrEqual
  | disjoint
  | intersects
  | isIn
  | notIn
  | contains
  | notContains
  | like
  | notLike
  deriving DecidableEq, Repr, Inhabited

/-- Whether the operator matches patterns. -/
def OperatorKind.isPattern : OperatorKind → Bool
  | .like | .notLike => true
  | _ => false

/-- The flags of a pattern. -/
structure LikeFlags where
  /-- Letters match without regard to case. -/
  ignoreCase : Bool
  /-- One or more whole lines of a text may match in place of all of it. -/
  perLine : Bool
  /-- A wildcard may stand for a line feed. -/
  acrossLines : Bool
  deriving DecidableEq, Repr, Inhabited

/-- No flag at all. -/
def LikeFlags.none : LikeFlags := ⟨false, false, false⟩

/-- An operator; the flags matter to patterns only. -/
structure Operator where
  kind : OperatorKind
  flags : LikeFlags
  deriving DecidableEq, Repr, Inhabited

namespace LikeFlags

/-- The letters that may stand after the name of a pattern operator. -/
def letters : List Char := ['i', 'm', 's', 'g', 'u', 'y']

/-- The flags with a letter's flag added; three of the letters stand for nothing. -/
def add (flags : LikeFlags) (letter : Char) : LikeFlags :=
  { ignoreCase := flags.ignoreCase || letter == 'i'
    perLine := flags.perLine || letter == 'm'
    acrossLines := flags.acrossLines || letter == 's' }

/-- The flags that a suffix spells: known letters, each at most once. -/
def parse? (suffix : List Char) : Option LikeFlags :=
  if suffix.all letters.contains && suffix.eraseDups.length == suffix.length then
    some (suffix.foldl add none)
  else Option.none

end LikeFlags

namespace Operator

/-- The names of the operators that take no flags. -/
def plainNames : List (String × OperatorKind) := [
  ("==", .equal), ("===", .strictEqual), ("!=", .notEqual), ("!==", .strictNotEqual),
  (">", .greater), (">=", .greaterOrEqual), ("<", .less), ("<=", .lessOrEqual),
  ("isectEmpty", .disjoint), ("isectNotEmpty", .intersects),
  ("in", .isIn), ("notIn", .notIn), ("contains", .contains), ("notContains", .notContains)]

/-- What follows a given beginning of a text, if it begins so. -/
def after? : List Char → List Char → Option (List Char)
  | [], rest => some rest
  | _ :: _, [] => none
  | p :: ps, c :: cs => if p = c then after? ps cs else none

/-- The pattern operator of a kind whose name is `word`, then a suffix of flags. -/
def patternNamed? (word : String) (kind : OperatorKind) (name : String) : Option Operator :=
  (after? word.toList name.toList).bind fun suffix =>
    (LikeFlags.parse? suffix).map fun flags => ⟨kind, flags⟩

/-- The operator of a name. -/
def ofName? (name : String) : Option Operator :=
  match plainNames.lookup name with
  | some kind => some ⟨kind, .none⟩
  | none => (patternNamed? "like" .like name).or (patternNamed? "notLike" .notLike name)

end Operator

end RecordQuery
