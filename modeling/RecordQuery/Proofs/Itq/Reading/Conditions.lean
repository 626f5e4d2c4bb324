import RecordQuery.Proofs.Itq.Reading.Values

/-!
# Reading conditions

The grammar joins a condition to the end of the conditions before it, while the reader goes from the
first condition to those after it. Both ways give the same conditions
(`Grammar.IsConditions.hasFirst`, `Grammar.IsConditions.cons`).
-/

namespace RecordQuery.Itq

open Grammar

variable {α : Type}

/-! ## Lists of conditions -/

/-- The condition with the way in which it is joined to those before it. -/
def Condition.joined (isOr : Bool) (condition : Condition) : Condition := { condition with isOr }

/-- The words that join a condition to those before it, and whether they widen. -/
inductive Joins : Token → Bool → Prop where
  | and (word : String) : Joins (.keyword .and word) false
  | or (word : String) : Joins (.keyword .or word) true

theorem Grammar.IsCondition.joined_false {ts : List Token} {c : Condition}
    (condition : IsCondition ts c) : c.joined false = c := by
  cases condition <;> rfl

theorem Grammar.IsConditions.ne_nil {ts : List Token} {cs : List Condition}
    (list : IsConditions ts cs) : cs ≠ [] := by
  cases list <;> simp

theorem modifyHead_append {f : α → α} {as : List α} (filled : as ≠ []) (bs : List α) :
    (as ++ bs).modifyHead f = as.modifyHead f ++ bs := by
  cases as with
  | nil => exact absurd rfl filled
  | cons a as => rfl

/-- Conditions may be more by one at their end. -/
theorem Grammar.IsConditions.snoc {ts us : List Token} {t : Token} {isOr : Bool} {c : Condition}
    {cs : List Condition} (list : IsConditions ts cs) (joins : Joins t isOr)
    (condition : IsCondition us c) : IsConditions (ts ++ t :: us) (cs ++ [c.joined isOr]) := by
  cases joins with
  | and word =>
    rw [condition.joined_false]
    exact .and word list condition
  | or word => exact .or word list condition

/-- There is a first condition, and perhaps conditions after a joining word. -/
def Conditions.HasFirst (ts : List Token) (cs : List Condition) : Prop :=
  ∃ us c, IsCondition us c ∧ ((ts = us ∧ cs = [c]) ∨ ∃ t isOr vs ds, Joins t isOr ∧
    IsConditions vs ds ∧ ts = us ++ t :: vs ∧ cs = c :: ds.modifyHead (.joined isOr))

theorem Conditions.HasFirst.snoc {ts us : List Token} {t : Token} {isOr : Bool} {c : Condition}
    {cs : List Condition} (split : HasFirst ts cs) (joins : Joins t isOr)
    (condition : IsCondition us c) : HasFirst (ts ++ t :: us) (cs ++ [c.joined isOr]) := by
  obtain ⟨vs, first, one, ⟨rfl, rfl⟩ | ⟨t', isOr', ws, ds, joins', others, rfl, rfl⟩⟩ := split
  · exact ⟨ts, first, one, .inr ⟨t, isOr, us, [c], joins, .single condition, rfl, rfl⟩⟩
  · refine ⟨vs, first, one, .inr ⟨t', isOr', _, _, joins', others.snoc joins condition, ?_, ?_⟩⟩
    · rw [List.append_assoc]
      rfl
    · rw [modifyHead_append others.ne_nil]
      rfl

theorem Grammar.IsConditions.hasFirst {ts : List Token} {cs : List Condition}
    (list : IsConditions ts cs) : Conditions.HasFirst ts cs := by
  induction list with
  | single condition => exact ⟨_, _, condition, .inl ⟨rfl, rfl⟩⟩
  | and word before condition ih =>
    rw [← condition.joined_false]
    exact ih.snoc (.and word) condition
  | or word before condition ih => exact ih.snoc (.or word) condition

/-- Conditions may be more by one at their front. -/
theorem Grammar.IsConditions.cons {ts us : List Token} {t : Token} {isOr : Bool} {c : Condition}
    {cs : List Condition} (condition : IsCondition ts c) (joins : Joins t isOr)
    (list : IsConditions us cs) :
    IsConditions (ts ++ t :: us) (c :: cs.modifyHead (.joined isOr)) := by
  induction list with
  | single other => exact .snoc (.single condition) joins other
  | and word before other ih =>
    rw [modifyHead_append before.ne_nil, ← other.joined_false]
    have longer := ih.snoc (.and word) other
    rwa [List.append_assoc] at longer
  | or word before other ih =>
    rw [modifyHead_append before.ne_nil]
    have longer := ih.snoc (.or word) other
    rwa [List.append_assoc] at longer

namespace Read

/-! ## Paths -/

/-- Names after dots go on with the path that they are read after. -/
theorem pathAfter_sound {before ts rest : List Token} {field path : String}
    (phrase : IsPath before field) (read : pathAfter field ts = .ok (path, rest)) :
    ∃ used, ts = used ++ rest ∧ IsPath (before ++ used) path := by
  fun_induction pathAfter field ts generalizing before with
  | case1 field name ts ih =>
    rcases ih (.dotted phrase name) read with ⟨used, tokens, longer⟩
    refine ⟨.symbol .dot :: .identifier name :: used, ?_, ?_⟩
    · rw [tokens]
      rfl
    · rwa [List.append_assoc] at longer
  | case2 => cases read
  | case3 =>
    cases read
    exact ⟨[], rfl, by rwa [List.append_nil]⟩

/-- A path is read up to its end, where the reader looks for more names. -/
theorem path_append {used : List Token} {field : String} (phrase : IsPath used field)
    (rest : List Token) : path (used ++ rest) = pathAfter field rest := by
  induction phrase generalizing rest with
  | single name => rfl
  | dotted before name ih =>
    rw [List.append_assoc, ih]
    rfl

theorem reads_path : Reads path IsPath [.symbol .dot] where
  sound := by
    intro ts field rest read
    rcases bind_eq_ok.mp read with ⟨⟨name, others⟩, first, read⟩
    rcases pathAfter_sound (.single name) read with ⟨used, tokens, phrase⟩
    refine ⟨_, ?_, phrase⟩
    rw [identifier_eq_ok.mp first, tokens]
    rfl
  complete := by
    intro used field rest phrase avoids
    rw [path_append phrase]
    unfold pathAfter
    split
    · exact absurd rfl (avoids _ (List.mem_singleton_self _))
    · exact absurd rfl (avoids _ (List.mem_singleton_self _))
    · rfl

/-! ## Conditions -/

theorem comparison?_eq_some {t : Token} {c : Comparison} :
    t.comparison? = some c ↔ IsComparison t c := by
  constructor
  · intro told
    cases t with
    | symbol s => cases s <;> cases told <;> constructor
    | _ => cases told
  · rintro ⟨⟩ <;> rfl

/-- How a field is related to a value: what follows the path in a condition. -/
inductive IsRelated : List Token → Relation × Value → Prop where
  | comparison {t : Token} {us : List Token} {c : Comparison} {v : Value}
      (sign : IsComparison t c) (value : IsValue us v) :
      IsRelated (t :: us) (.comparison c, v)
  | word {us : List Token} {w : WordRelation} {v : Value} (related : IsWordRelation us w v) :
      IsRelated us (.word false w, v)
  | negated {us : List Token} {w : WordRelation} {v : Value} (word : String)
      (related : IsWordRelation us w v) :
      IsRelated (.keyword .not word :: us) (.word true w, v)

theorem isCondition_iff {ts : List Token} {c : Condition} : IsCondition ts c ↔
    c.isOr = false ∧ ∃ us vs, ts = us ++ vs ∧ IsPath us c.field ∧
      IsRelated vs (c.relation, c.value) := by
  constructor
  · rintro (⟨path, sign, value⟩ | ⟨path, related⟩ | ⟨word, path, related⟩)
    · exact ⟨rfl, _, _, rfl, path, .comparison sign value⟩
    · exact ⟨rfl, _, _, rfl, path, .word related⟩
    · exact ⟨rfl, _, _, rfl, path, .negated word related⟩
  · obtain ⟨field, relation, v, isOr⟩ := c
    rintro ⟨rfl, us, vs, rfl, path, related⟩
    cases related with
    | comparison sign value => exact .comparison path sign value
    | word related => exact .word path related
    | negated word related => exact .negated word path related

theorem isSound_wordRelation (negated : Bool) : IsSound (wordRelation negated)
    fun ts related => ∃ w v, IsWordRelation ts w v ∧ related = (.word negated w, v) := by
  intro ts related rest read
  unfold wordRelation at read
  split at read
  · cases read
  · rename_i t ts
    split at read
    · rename_i w told
      rcases bind_eq_ok.mp read with ⟨⟨v, others⟩, operand, read⟩
      cases read
      cases t with
      | keyword k word =>
        cases k <;> cases told
        · rcases reads_listLiteral.sound operand with ⟨used, rfl, phrase⟩
          exact ⟨_ :: used, rfl, _, _, .isIn word phrase, rfl⟩
        · rcases reads_value.sound operand with ⟨used, rfl, phrase⟩
          exact ⟨_ :: used, rfl, _, _, .contains word phrase, rfl⟩
        · rcases string_eq_ok.mp operand with ⟨pattern, rfl, rfl⟩
          exact ⟨[_, _], rfl, _, _, .like word pattern, rfl⟩
        · rcases string_eq_ok.mp operand with ⟨pattern, rfl, rfl⟩
          exact ⟨[_, _], rfl, _, _, .ilike word pattern, rfl⟩
        · rcases reads_listLiteral.sound operand with ⟨used, rfl, phrase⟩
          exact ⟨_ :: used, rfl, _, _, .intersects word phrase, rfl⟩
      | _ => cases told
    · cases read

theorem wordRelation_complete (negated : Bool) {used : List Token} {w : WordRelation} {v : Value}
    (phrase : IsWordRelation used w v) (rest : List Token) :
    wordRelation negated (used ++ rest) = .ok ((.word negated w, v), rest) := by
  cases phrase with
  | isIn word list =>
    exact bind_eq_ok.mpr ⟨_, reads_listLiteral.complete list (avoids_none _), rfl⟩
  | intersects word list =>
    exact bind_eq_ok.mpr ⟨_, reads_listLiteral.complete list (avoids_none _), rfl⟩
  | contains word value =>
    exact bind_eq_ok.mpr ⟨_, reads_value.complete value (avoids_none _), rfl⟩
  | like word pattern => rfl
  | ilike word pattern => rfl

theorem relation_of_isWordRelation {used : List Token} {w : WordRelation} {v : Value}
    (phrase : IsWordRelation used w v) (rest : List Token) :
    relation (used ++ rest) = wordRelation false (used ++ rest) := by
  cases phrase <;> rfl

theorem reads_relation : Reads relation IsRelated [] where
  sound := by
    intro ts related rest read
    unfold relation at read
    split at read
    · cases read
    · rename_i word ts
      rcases isSound_wordRelation true read with ⟨used, rfl, w, v, phrase, rfl⟩
      exact ⟨_ :: used, rfl, .negated word phrase⟩
    · split at read
      · rename_i told
        rcases bind_eq_ok.mp read with ⟨⟨v, others⟩, value, read⟩
        cases read
        rcases reads_value.sound value with ⟨used, rfl, phrase⟩
        exact ⟨_ :: used, rfl, .comparison (comparison?_eq_some.mp told) phrase⟩
      · rcases isSound_wordRelation false read with ⟨used, tokens, w, v, phrase, rfl⟩
        exact ⟨used, tokens, .word phrase⟩
  complete := by
    intro used related rest phrase avoids
    cases phrase with
    | comparison sign value =>
      have read := reads_value.complete value avoids
      cases sign <;> exact bind_eq_ok.mpr ⟨_, read, rfl⟩
    | word related =>
      rw [relation_of_isWordRelation related]
      exact wordRelation_complete false related rest
    | negated word related => exact wordRelation_complete true related rest

/-- What relates a field never begins with a dot, which would go on with the path. -/
theorem avoids_dot {used : List Token} {related : Relation × Value}
    (phrase : IsRelated used related) (rest : List Token) :
    Avoids [.symbol .dot] (used ++ rest) := by
  intro mark member front
  rw [List.mem_singleton.mp member] at front
  cases phrase with
  | comparison sign value => cases sign <;> cases front
  | word related => cases related <;> cases front
  | negated word related => cases front

theorem reads_condition (isOr : Bool) : Reads (condition isOr)
    (fun ts c => ∃ d, IsCondition ts d ∧ c = d.joined isOr) [] where
  sound := by
    intro ts c rest read
    rcases bind_eq_ok.mp read with ⟨⟨field, others⟩, path, read⟩
    rcases bind_eq_ok.mp read with ⟨⟨⟨relation, v⟩, others'⟩, related, read⟩
    cases read
    rcases reads_path.sound path with ⟨us, rfl, named⟩
    rcases reads_relation.sound related with ⟨vs, rfl, phrase⟩
    refine ⟨us ++ vs, (List.append_assoc _ _ _).symm, ⟨field, relation, v, false⟩, ?_, rfl⟩
    exact isCondition_iff.mpr ⟨rfl, us, vs, rfl, named, phrase⟩
  complete := by
    rintro used _ rest ⟨c, phrase, rfl⟩ avoids
    obtain ⟨_, us, vs, rfl, path, related⟩ := isCondition_iff.mp phrase
    rw [List.append_assoc]
    refine bind_eq_ok.mpr ⟨_, reads_path.complete path (avoids_dot related rest), ?_⟩
    exact bind_eq_ok.mpr ⟨_, reads_relation.complete related avoids, rfl⟩

theorem isSound_conditionsWithin (fuel : Nat) (isOr : Bool) :
    IsSound (conditionsWithin fuel isOr)
      fun ts cs => ∃ ds, IsConditions ts ds ∧ cs = ds.modifyHead (.joined isOr) := by
  induction fuel generalizing isOr with
  | zero =>
    intro ts cs rest read
    cases read
  | succ fuel ih =>
    intro ts cs rest read
    rw [conditionsWithin] at read
    rcases bind_eq_ok.mp read with ⟨⟨c, others⟩, first, read⟩
    rcases (reads_condition isOr).sound first with ⟨used, rfl, d, phrase, rfl⟩
    dsimp only at read
    split at read
    · rename_i word ts _
      rcases bind_eq_ok.mp read with ⟨⟨cs, others'⟩, following, read⟩
      cases read
      rcases ih false following with ⟨used', rfl, ds, phrase', rfl⟩
      refine ⟨_, ?_, _, IsConditions.cons phrase (.and word) phrase', rfl⟩
      simp
    · rename_i word ts _
      rcases bind_eq_ok.mp read with ⟨⟨cs, others'⟩, following, read⟩
      cases read
      rcases ih true following with ⟨used', rfl, ds, phrase', rfl⟩
      refine ⟨_, ?_, _, IsConditions.cons phrase (.or word) phrase', rfl⟩
      simp
    · cases read
      exact ⟨used, rfl, [d], .single phrase, rfl⟩

theorem conditionsWithin_complete {fuel : Nat} (isOr : Bool) {used rest : List Token}
    {cs : List Condition} (phrase : IsConditions used cs) (bound : used.length < fuel)
    (avoids : Avoids [.keyword .and, .keyword .or] rest) :
    conditionsWithin fuel isOr (used ++ rest) = .ok (cs.modifyHead (.joined isOr), rest) := by
  induction fuel generalizing isOr used cs with
  | zero => exact absurd bound (Nat.not_lt_zero _)
  | succ fuel ih =>
    rw [conditionsWithin]
    obtain ⟨us, c, first, ⟨rfl, rfl⟩ | ⟨t, joined, ts, ds, joins, list, rfl, rfl⟩⟩ := phrase.hasFirst
    · have read := (reads_condition isOr).complete ⟨c, first, rfl⟩ (avoids_none rest)
      refine bind_eq_ok.mpr ⟨_, read, ?_⟩
      dsimp only
      split
      · exact absurd rfl (avoids _ (List.mem_cons_self))
      · exact absurd rfl (avoids _ (List.mem_cons_of_mem _ (List.mem_singleton_self _)))
      · rfl
    · rw [List.length_append, List.length_cons] at bound
      rw [List.append_assoc]
      have read := (reads_condition isOr).complete ⟨c, first, rfl⟩ (avoids_none (t :: ts ++ rest))
      refine bind_eq_ok.mpr ⟨_, read, ?_⟩
      have following := ih joined list (by omega)
      cases joins with
      | and word => exact bind_eq_ok.mpr ⟨_, following, rfl⟩
      | or word => exact bind_eq_ok.mpr ⟨_, following, rfl⟩

theorem modifyHead_joined_false {used : List Token} {cs : List Condition}
    (phrase : IsConditions used cs) : cs.modifyHead (.joined false) = cs := by
  induction phrase with
  | single condition => exact congrArg (fun c => [c]) condition.joined_false
  | and word before condition ih => rw [modifyHead_append before.ne_nil, ih]
  | or word before condition ih => rw [modifyHead_append before.ne_nil, ih]

theorem reads_conditions :
    Reads conditions IsWhereClause [.keyword .condition, .keyword .and, .keyword .or] where
  sound := by
    intro ts cs rest read
    unfold conditions at read
    split at read
    · rename_i word ts
      rcases isSound_conditionsWithin _ false read with ⟨used, rfl, ds, phrase, rfl⟩
      rw [modifyHead_joined_false phrase]
      exact ⟨_, rfl, .conditions word phrase⟩
    · cases read
      exact ⟨[], rfl, .empty⟩
  complete := by
    intro used cs rest phrase avoids
    cases phrase with
    | empty =>
      rw [List.nil_append]
      unfold conditions
      split
      · exact absurd rfl (avoids _ (List.mem_cons_self))
      · rfl
    | @conditions ts cs word phrase =>
      have short : ts.length < (ts ++ rest).length + 1 := by
        rw [List.length_append]
        omega
      have more : Avoids [.keyword .and, .keyword .or] rest := avoids.mono (by simp)
      have read := conditionsWithin_complete false phrase short more
      rw [modifyHead_joined_false phrase] at read
      exact read

end Read

end RecordQuery.Itq
