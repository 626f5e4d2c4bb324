import RecordQuery.Value.Basic

/-!
# Paging

Skipping and limiting cut a list at a count. A count is a number of any kind, cut toward zero; a
negative count counts from the end. Counts are clamped to the length, so an infinite count takes
everything, and not-a-number counts as zero.
-/

namespace RecordQuery

/-- A count as a whole number between minus the length and the length. -/
def Numeric.clampTo (length : Int) : Numeric → Int
  | .truth b => max (-length) (min length (if b then 1 else 0))
  | .int n => max (-length) (min length n)
  | .float (.nan _) => 0
  | .float (.infinite negative) => if negative then -length else length
  | .float (.finite negative m e) =>
    max (-length) (min length (Binary64.truncate negative m e))

/-- The position that a clamped count stands for. -/
def cutPosition (length : Nat) (count : Int) : Nat :=
  if count < 0 then length - (-count).toNat else count.toNat

namespace Numeric

/-- The items after the first `count`. -/
def skip {α : Type} (count : Numeric) (items : List α) : List α :=
  items.drop (cutPosition items.length (count.clampTo items.length))

/-- The first `count` items. -/
def limit {α : Type} (count : Numeric) (items : List α) : List α :=
  items.take (cutPosition items.length (count.clampTo items.length))

end Numeric

namespace Value

/-- Skips by the value if it is a number, and keeps everything otherwise. -/
def skipIfNumber {α : Type} (v : Value) (items : List α) : List α :=
  match v.number? with
  | some count => count.skip items
  | none => items

/-- Limits by the value if it is a number, and keeps everything otherwise. -/
def limitIfNumber {α : Type} (v : Value) (items : List α) : List α :=
  match v.number? with
  | some count => count.limit items
  | none => items

end Value

end RecordQuery
