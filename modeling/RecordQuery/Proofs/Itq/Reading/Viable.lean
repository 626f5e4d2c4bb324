import RecordQuery.Proofs.Itq.Reading.Foresight

/-!
# Where readers stop

Tokens are viable if some phrase begins with them (`IsViable`). Wherever a reader is stopped, what it
took until then is viable (`StopsViable`), so it is stopped no later than at the first token that no
phrase can hold there. It is not stopped earlier either, as what follows that token does not matter
to it (`Statement.ofTokens_eq_error`).
-/

namespace RecordQuery.Itq

open Grammar Read

variable {α β : Type} {L : List Token → Prop} {before : List Token}

/-- Some phrase begins with the tokens. -/
def IsViable (L : List Token → Prop) (ts : List Token) : Prop := ∃ more, L (ts ++ more)

theorem isViable_of_phrase {ts : List Token} (phrase : L ts) : IsViable L ts :=
  ⟨[], by rwa [List.append_nil]⟩

theorem IsViable.of_append {ts more : List Token} (viable : IsViable L (ts ++ more)) :
    IsViable L ts := by
  obtain ⟨others, phrase⟩ := viable
  rw [List.append_assoc] at phrase
  exact ⟨_, phrase⟩

/-- Wherever the reader is stopped behind some tokens, these and what it took are viable. -/
structure StopsViable (L : List Token → Prop) (before : List Token) (reader : Reader α) :
    Prop where
  viable : ∀ {ts rest : List Token}, reader ts = .error rest →
    ∃ used, ts = used ++ rest ∧ IsViable L (before ++ used)

/-- The tokens of a statement. -/
def Grammar.StatementTokens (ts : List Token) : Prop := ∃ s, IsStatement ts s

/-! ## Readers put together -/

theorem stopsViable_ok (read : List Token → α × List Token) :
    StopsViable L before fun ts => .ok (read ts) where
  viable stopped := by cases stopped

theorem stopsViable_pure (a : α) : StopsViable L before fun ts => .ok (a, ts) :=
  stopsViable_ok fun ts => (a, ts)

theorem stopsViable_refuse (viable : IsViable L before) :
    StopsViable L before fun ts => (.error ts : Except (List Token) (α × List Token)) where
  viable stopped := by
    cases stopped
    exact ⟨[], rfl, by rwa [List.append_nil]⟩

/-- What begins a phrase of one kind begins a phrase of a kind that holds it. -/
theorem StopsViable.within {reader : Reader α} {Part : List Token → Prop}
    (stops : StopsViable Part [] reader)
    (begins : ∀ used, Part used → IsViable L (before ++ used)) : StopsViable L before reader where
  viable stopped := by
    obtain ⟨used, split, more, phrase⟩ := stops.viable stopped
    have viable := begins _ phrase
    rw [List.nil_append, ← List.append_assoc] at viable
    exact ⟨used, split, viable.of_append⟩

theorem StopsViable.bind {first : Reader α} {next : α → Reader β}
    {Phrase : List Token → α → Prop} (sound : IsSound first Phrase)
    (stops : StopsViable L before first)
    (each : ∀ used a, Phrase used a → StopsViable L (before ++ used) (next a)) :
    StopsViable L before fun ts => first ts >>= fun read => next read.1 read.2 where
  viable := by
    intro ts rest stopped
    cases begun : first ts with
    | error left =>
      rw [begun] at stopped
      cases stopped
      exact stops.viable begun
    | ok read =>
      rw [begun] at stopped
      obtain ⟨used, rfl, phrase⟩ := sound begun
      obtain ⟨more, split, viable⟩ := (each used read.1 phrase).viable stopped
      rw [split]
      exact ⟨used ++ more, (List.append_assoc _ _ _).symm, by rwa [← List.append_assoc]⟩

theorem StopsViable.map {first : Reader α} (stops : StopsViable L before first) (f : α → β) :
    StopsViable L before fun ts => first ts >>= fun read => .ok (f read.1, read.2) where
  viable := by
    intro ts rest stopped
    cases begun : first ts with
    | error left =>
      rw [begun] at stopped
      cases stopped
      exact stops.viable begun
    | ok read =>
      rw [begun] at stopped
      cases stopped

/-- A reader that begins with a token either takes it or leaves it to another reader. -/
inductive StopsViableAt (L : List Token → Prop) (before : List Token) (reader : Reader α)
    (t : Token) : Prop where
  | take {inner : Reader α} (stops : StopsViable L (before ++ [t]) inner)
      (same : ∀ ts, reader (t :: ts) = inner ts)
  | leave {other : Reader α} (stops : StopsViable L before other)
      (same : ∀ ts, reader (t :: ts) = other (t :: ts))

theorem StopsViable.of_front {reader other : Reader α} (stops : StopsViable L before other)
    (atEnd : reader [] = other []) (front : ∀ t, StopsViableAt L before reader t) :
    StopsViable L before reader where
  viable := by
    intro ts rest stopped
    cases ts with
    | nil =>
      rw [atEnd] at stopped
      exact stops.viable stopped
    | cons t ts =>
      cases front t with
      | take stops same =>
        rw [same] at stopped
        obtain ⟨used, rfl, viable⟩ := stops.viable stopped
        rw [List.append_assoc] at viable
        exact ⟨t :: used, rfl, viable⟩
      | leave stops same =>
        rw [same] at stopped
        exact stops.viable stopped

namespace Read

/-! ## Single tokens -/

theorem ReadsOne.stopsViable {reader : Reader α} (one : ReadsOne reader)
    (viable : IsViable L before) : StopsViable L before reader := by
  refine .of_front (stopsViable_refuse viable) one.atEnd fun t => ?_
  rcases one.front t with ⟨a, taken⟩ | refused
  · exact .take (stopsViable_pure a) taken
  · exact .leave (stopsViable_refuse viable) refused

theorem isSound_keyword (k : Keyword) :
    IsSound (keyword k) fun ts _ => ∃ word, ts = [.keyword k word] := by
  intro ts _ rest read
  obtain ⟨word, split⟩ := keyword_eq_ok.mp read
  exact ⟨[.keyword k word], split, word, rfl⟩

theorem isSound_identifier : IsSound identifier fun ts name => ts = [.identifier name] := by
  intro ts name rest read
  exact ⟨[.identifier name], identifier_eq_ok.mp read, rfl⟩

/-! ## Values -/

/-- The tokens of a value. -/
def ValueTokens (ts : List Token) : Prop := ∃ v, IsValue ts v

/-- The tokens of one or more values with commas between them. -/
def ValuesTokens (ts : List Token) : Prop := ∃ vs, IsListOf IsValue ts vs

theorem isViable_value : IsViable ValueTokens [] :=
  ⟨[.keyword .null "null"], .null, .null "null"⟩

theorem isViable_values : IsViable ValuesTokens [] :=
  ⟨[.keyword .null "null"], [.null], .single (.null "null")⟩

theorem stopsViable_afterBracket {fuel : Nat}
    (inner : StopsViable ValuesTokens [] (valuesWithin fuel)) :
    StopsViable ValueTokens [.symbol .leftBracket] (afterBracket fuel) := by
  have begins : ∀ used vs, IsListOf IsValue used vs →
      IsViable ValueTokens ([.symbol .leftBracket] ++ used) := fun used vs items =>
    ⟨[.symbol .rightBracket], .list vs, .list (.values items)⟩
  have filled : StopsViable ValueTokens [.symbol .leftBracket] (toBracket fuel) :=
    .bind (isSound_within fuel).2 (inner.within fun used ⟨vs, items⟩ => begins used vs items)
      fun used vs items =>
        ((readsOne_symbol .rightBracket).stopsViable (begins used vs items)).map fun _ =>
          Value.list vs
  refine .of_front filled rfl fun t => ?_
  cases t with
  | symbol s =>
    cases s with
    | rightBracket => exact .take (stopsViable_pure _) fun _ => rfl
    | _ => exact .leave filled fun _ => rfl
  | _ => exact .leave filled fun _ => rfl

theorem stopsViable_valueWithin_succ {fuel : Nat}
    (inner : StopsViable ValuesTokens [] (valuesWithin fuel)) :
    StopsViable ValueTokens [] (valueWithin (fuel + 1)) := by
  refine .of_front (stopsViable_refuse isViable_value) rfl fun t => ?_
  cases literal : t.literal? with
  | some v => exact .take (stopsViable_pure v) (valueWithin_literal literal)
  | none =>
    by_cases bracket : t = .symbol .leftBracket
    · rw [bracket]
      exact .take (stopsViable_afterBracket inner) (valueWithin_leftBracket fuel)
    · exact .leave (stopsViable_refuse isViable_value) (valueWithin_refuse literal bracket)

theorem stopsViable_afterValue {fuel : Nat}
    (inner : StopsViable ValuesTokens [] (valuesWithin fuel)) {used : List Token} {v : Value}
    (phrase : IsValue used v) : StopsViable ValuesTokens used (afterValue fuel v) := by
  have further : StopsViable ValuesTokens (used ++ [.symbol .comma]) (valuesWithin fuel) := by
    refine inner.within fun more ⟨vs, items⟩ => isViable_of_phrase ⟨v :: vs, ?_⟩
    rw [List.append_assoc]
    exact .cons phrase items
  refine .of_front (stopsViable_pure [v]) rfl fun t => ?_
  cases t with
  | symbol s =>
    cases s with
    | comma => exact .take (further.map fun vs => v :: vs) fun _ => rfl
    | _ => exact .leave (stopsViable_pure [v]) fun _ => rfl
  | _ => exact .leave (stopsViable_pure [v]) fun _ => rfl

theorem stopsViable_within (fuel : Nat) : StopsViable ValueTokens [] (valueWithin fuel) ∧
    StopsViable ValuesTokens [] (valuesWithin fuel) := by
  induction fuel with
  | zero =>
    rw [valueWithin_zero, valuesWithin_zero]
    exact ⟨stopsViable_refuse isViable_value, stopsViable_refuse isViable_values⟩
  | succ fuel ih =>
    refine ⟨stopsViable_valueWithin_succ ih.2, ?_⟩
    rw [valuesWithin_succ]
    refine .bind (isSound_within fuel).1 (ih.1.within ?_) fun used v phrase =>
      stopsViable_afterValue ih.2 phrase
    exact fun used ⟨v, phrase⟩ => isViable_of_phrase ⟨[v], .single phrase⟩

theorem stopsViable_value : StopsViable ValueTokens [] value :=
  ⟨fun stopped => (stopsViable_within _).1.viable stopped⟩

theorem stopsViable_values : StopsViable ValuesTokens [] values :=
  ⟨fun stopped => (stopsViable_within _).2.viable stopped⟩

/-- The tokens of a list literal. -/
def ListTokens (ts : List Token) : Prop := ∃ v, IsListLiteral ts v

theorem isViable_listLiteral : IsViable ListTokens [] := ⟨_, .list [], .empty⟩

theorem stopsViable_listLiteral : StopsViable ListTokens [] listLiteral where
  viable := by
    intro ts rest stopped
    unfold listLiteral at stopped
    split at stopped
    · obtain ⟨used, split, more, v, phrase⟩ := stopsViable_value.viable stopped
      refine ⟨used, split, ?_⟩
      cases used with
      | nil => exact isViable_listLiteral
      | cons t used =>
        cases split
        exact ⟨more, v, isListLiteral_of_leftBracket phrase⟩
    · cases stopped
      exact ⟨[], rfl, isViable_listLiteral⟩

/-! ## Conditions -/

/-- The tokens of a field path. -/
def PathTokens (ts : List Token) : Prop := ∃ field, IsPath ts field

theorem isViable_path : IsViable PathTokens [] := ⟨[.identifier "id"], "id", .single "id"⟩

theorem stopsViable_pathAfter {field : String} (phrase : IsPath before field) :
    StopsViable PathTokens before (pathAfter field) where
  viable := by
    intro ts rest stopped
    fun_induction pathAfter field ts generalizing before with
    | case1 field name ts ih =>
      obtain ⟨used, rfl, viable⟩ := ih (.dotted phrase name) stopped
      rw [List.append_assoc] at viable
      exact ⟨.symbol .dot :: .identifier name :: used, rfl, viable⟩
    | case2 field ts =>
      cases stopped
      refine ⟨[.symbol .dot], rfl, [.identifier "id"], field ++ "." ++ "id", ?_⟩
      rw [List.append_assoc]
      exact .dotted phrase "id"
    | case3 => cases stopped

theorem stopsViable_path : StopsViable PathTokens [] path := by
  refine .bind isSound_identifier (readsOne_identifier.stopsViable isViable_path) ?_
  rintro _ name rfl
  exact stopsViable_pathAfter (.single name)

/-- The tokens of a word relation and its operand. -/
def WordRelationTokens (ts : List Token) : Prop := ∃ w v, IsWordRelation ts w v

theorem isViable_wordRelation : IsViable WordRelationTokens [] :=
  ⟨_, .like, _, .like "like" "%"⟩

theorem stopsViable_operand {t : Token} {w : WordRelation} (told : t.wordRelation? = some w) :
    StopsViable WordRelationTokens [t] (operand w) := by
  cases t with
  | keyword k word =>
    cases k <;> cases told
    · exact stopsViable_listLiteral.within fun used ⟨v, list⟩ =>
        isViable_of_phrase ⟨_, v, .isIn word list⟩
    · exact stopsViable_value.within fun used ⟨v, value⟩ =>
        isViable_of_phrase ⟨_, v, .contains word value⟩
    · exact readsOne_string.stopsViable ⟨[.string "%"], _, _, .like word "%"⟩
    · exact readsOne_string.stopsViable ⟨[.string "%"], _, _, .ilike word "%"⟩
    · exact stopsViable_listLiteral.within fun used ⟨v, list⟩ =>
        isViable_of_phrase ⟨_, v, .intersects word list⟩
  | _ => cases told

theorem stopsViable_wordRelation (negated : Bool) :
    StopsViable WordRelationTokens [] (wordRelation negated) := by
  refine .of_front (stopsViable_refuse isViable_wordRelation) rfl fun t => ?_
  cases told : t.wordRelation? with
  | some w =>
    refine .take ((stopsViable_operand told).map fun v => (Relation.word negated w, v)) fun ts => ?_
    rw [wordRelation, told]
    rfl
  | none =>
    refine .leave (stopsViable_refuse isViable_wordRelation) fun ts => ?_
    rw [wordRelation, told]

/-- The tokens that relate a field to a value. -/
def RelationTokens (ts : List Token) : Prop := ∃ related, IsRelated ts related

theorem isViable_relation : IsViable RelationTokens [] :=
  ⟨_, _, .comparison .assign (.null "null")⟩

theorem stopsViable_relation : StopsViable RelationTokens [] relation := by
  have plain : StopsViable RelationTokens [] (wordRelation false) :=
    (stopsViable_wordRelation false).within fun used ⟨w, v, phrase⟩ =>
      isViable_of_phrase ⟨_, .word phrase⟩
  refine .of_front (stopsViable_refuse isViable_relation) rfl fun t => ?_
  cases told : t.comparison? with
  | some c =>
    have compared : StopsViable RelationTokens [t] value :=
      stopsViable_value.within fun used ⟨v, phrase⟩ =>
        isViable_of_phrase ⟨_, .comparison (comparison?_eq_some.mp told) phrase⟩
    refine .take (compared.map fun v => (Relation.comparison c, v)) ?_
    exact relation_of_comparison? told
  | none =>
    cases t with
    | keyword k word =>
      cases k with
      | not =>
        refine .take ((stopsViable_wordRelation true).within ?_) fun _ => rfl
        exact fun used ⟨w, v, phrase⟩ => isViable_of_phrase ⟨_, .negated word phrase⟩
      | _ => exact .leave plain fun _ => rfl
    | symbol s => exact .leave plain (relation_of_symbol told)
    | _ => exact .leave plain fun _ => rfl

/-- The tokens of a condition by itself. -/
def ConditionTokens (ts : List Token) : Prop := ∃ c, IsCondition ts c

theorem stopsViable_condition (isOr : Bool) :
    StopsViable ConditionTokens [] (condition isOr) := by
  have named : StopsViable ConditionTokens [] path :=
    stopsViable_path.within fun used ⟨field, path⟩ =>
      ⟨_, _, .comparison path .assign (.null "null")⟩
  have related {used : List Token} {field : String} (path : IsPath used field) :
      StopsViable ConditionTokens used relation :=
    stopsViable_relation.within fun more ⟨⟨relation, v⟩, related⟩ => isViable_of_phrase
      ⟨⟨field, relation, v, false⟩, isCondition_iff.mpr ⟨rfl, used, more, rfl, path, related⟩⟩
  exact .bind reads_path.sound named fun used field path =>
    (related path).map fun related => Condition.mk field related.1 related.2 isOr

/-- The tokens of one or more conditions joined by `and` and `or`. -/
def ConditionsTokens (ts : List Token) : Prop := ∃ cs, IsConditions ts cs

theorem stopsViable_afterCondition {fuel : Nat}
    (inner : ∀ isOr, StopsViable ConditionsTokens [] (conditionsWithin fuel isOr))
    {used : List Token} {c : Condition} (phrase : IsCondition used c) (first : Condition) :
    StopsViable ConditionsTokens used (afterCondition fuel first) := by
  have further : ∀ {t isOr}, Joins t isOr →
      StopsViable ConditionsTokens (used ++ [t]) (conditionsWithin fuel isOr) := by
    intro t isOr joins
    refine (inner isOr).within fun more ⟨cs, list⟩ => isViable_of_phrase ⟨c :: cs.modifyHead (.joined isOr), ?_⟩
    rw [List.append_assoc]
    exact IsConditions.cons phrase joins list
  refine .of_front (stopsViable_pure [first]) rfl fun t => ?_
  cases t with
  | keyword k word =>
    cases k with
    | and => exact .take ((further (.and word)).map fun more => first :: more) fun _ => rfl
    | or => exact .take ((further (.or word)).map fun more => first :: more) fun _ => rfl
    | _ => exact .leave (stopsViable_pure [first]) fun _ => rfl
  | _ => exact .leave (stopsViable_pure [first]) fun _ => rfl

theorem stopsViable_conditionsWithin (fuel : Nat) (isOr : Bool) :
    StopsViable ConditionsTokens [] (conditionsWithin fuel isOr) := by
  induction fuel generalizing isOr with
  | zero =>
    have phrase := IsCondition.comparison (.single "id") .assign (.null "null")
    exact stopsViable_refuse ⟨_, _, .single phrase⟩
  | succ fuel ih =>
    rw [conditionsWithin_succ]
    refine .bind (reads_condition isOr).sound ((stopsViable_condition isOr).within ?_) ?_
    · exact fun used ⟨c, phrase⟩ => isViable_of_phrase ⟨[c], .single phrase⟩
    · rintro used c ⟨d, phrase, rfl⟩
      exact stopsViable_afterCondition ih phrase (d.joined isOr)

/-- The tokens of the conditions of a statement, or none. -/
def WhereTokens (ts : List Token) : Prop := ∃ cs, IsWhereClause ts cs

theorem stopsViable_conditions : StopsViable WhereTokens [] conditions := by
  have listed (word : String) : StopsViable WhereTokens [.keyword .condition word] fun ts =>
      conditionsWithin (ts.length + 1) false ts := by
    have stops : StopsViable ConditionsTokens [] fun ts =>
        conditionsWithin (ts.length + 1) false ts :=
      ⟨fun stopped => (stopsViable_conditionsWithin _ false).viable stopped⟩
    exact stops.within fun used ⟨cs, phrase⟩ => isViable_of_phrase ⟨cs, .conditions word phrase⟩
  refine .of_front (stopsViable_pure []) rfl fun t => ?_
  cases t with
  | keyword k word =>
    cases k with
    | condition => exact .take (listed word) fun _ => rfl
    | _ => exact .leave (stopsViable_pure []) fun _ => rfl
  | _ => exact .leave (stopsViable_pure []) fun _ => rfl

/-! ## Clauses -/

/-- The tokens of a sort key. -/
def SortKeyTokens (ts : List Token) : Prop := ∃ key, IsSortKey ts key

theorem stopsViable_afterField (field : String) : StopsViable L before (afterField field) := by
  refine .of_front (stopsViable_pure ⟨field, .ascending⟩) rfl fun t => ?_
  cases t with
  | keyword k word =>
    cases k with
    | ascending => exact .take (stopsViable_pure ⟨field, .ascending⟩) fun _ => rfl
    | descending => exact .take (stopsViable_pure ⟨field, .descending⟩) fun _ => rfl
    | _ => exact .leave (stopsViable_pure ⟨field, .ascending⟩) fun _ => rfl
  | _ => exact .leave (stopsViable_pure ⟨field, .ascending⟩) fun _ => rfl

theorem stopsViable_sortKey : StopsViable SortKeyTokens [] sortKey := by
  have named : StopsViable SortKeyTokens [] path :=
    stopsViable_path.within fun used ⟨field, path⟩ => isViable_of_phrase ⟨_, .plain path⟩
  exact .bind reads_path.sound named fun used field _ => stopsViable_afterField field

/-- The tokens of one or more sort keys with commas between them. -/
def SortKeysTokens (ts : List Token) : Prop := ∃ keys, IsListOf IsSortKey ts keys

theorem isViable_sortKeys : IsViable SortKeysTokens [] :=
  ⟨[.identifier "id"], _, .single (.plain (.single "id"))⟩

theorem stopsViable_afterSortKey {fuel : Nat}
    (inner : StopsViable SortKeysTokens [] (sortKeysWithin fuel)) {used : List Token}
    {key : SortKey} (phrase : IsSortKey used key) :
    StopsViable SortKeysTokens used (afterSortKey fuel key) := by
  have further : StopsViable SortKeysTokens (used ++ [.symbol .comma]) (sortKeysWithin fuel) := by
    refine inner.within fun more ⟨keys, list⟩ => isViable_of_phrase ⟨key :: keys, ?_⟩
    rw [List.append_assoc]
    exact .cons phrase list
  refine .of_front (stopsViable_pure [key]) rfl fun t => ?_
  cases t with
  | symbol s =>
    cases s with
    | comma => exact .take (further.map fun keys => key :: keys) fun _ => rfl
    | _ => exact .leave (stopsViable_pure [key]) fun _ => rfl
  | _ => exact .leave (stopsViable_pure [key]) fun _ => rfl

theorem stopsViable_sortKeysWithin (fuel : Nat) :
    StopsViable SortKeysTokens [] (sortKeysWithin fuel) := by
  induction fuel with
  | zero => exact stopsViable_refuse isViable_sortKeys
  | succ fuel ih =>
    rw [sortKeysWithin_succ]
    refine .bind reads_sortKey.sound (stopsViable_sortKey.within ?_) fun used key phrase =>
      stopsViable_afterSortKey ih phrase
    exact fun used ⟨key, phrase⟩ => isViable_of_phrase ⟨[key], .single phrase⟩

/-- The tokens of a clause that tells what to sort by, or none. -/
def SortTokens (ts : List Token) : Prop := ∃ keys, IsSortClause ts keys

theorem stopsViable_sortBy : StopsViable SortTokens [] sortBy := by
  have followed (word : String) : IsViable SortTokens [.keyword .sort word] :=
    ⟨_, _, .keys word "by" (.single (.plain (.single "id")))⟩
  have listed (word : String) (used : List Token) (_ : Unit)
      (follows : ∃ follower, used = [.keyword .sortBy follower]) :
      StopsViable SortTokens ([.keyword .sort word] ++ used) fun ts =>
        sortKeysWithin (ts.length + 1) ts := by
    have stops : StopsViable SortKeysTokens [] fun ts => sortKeysWithin (ts.length + 1) ts :=
      ⟨fun stopped => (stopsViable_sortKeysWithin _).viable stopped⟩
    obtain ⟨follower, rfl⟩ := follows
    exact stops.within fun used ⟨keys, list⟩ => isViable_of_phrase ⟨keys, .keys word follower list⟩
  refine .of_front (stopsViable_pure []) rfl fun t => ?_
  cases t with
  | keyword k word =>
    cases k with
    | sort =>
      exact .take (.bind (isSound_keyword .sortBy)
        ((readsOne_keyword .sortBy).stopsViable (followed word)) (listed word)) fun _ => rfl
    | _ => exact .leave (stopsViable_pure []) fun _ => rfl
  | _ => exact .leave (stopsViable_pure []) fun _ => rfl

/-- The tokens of a clause that tells how many records to skip, or none. -/
def OffsetTokens (ts : List Token) : Prop := ∃ n, IsOffsetClause ts n

theorem stopsViable_offset : StopsViable OffsetTokens [] offset := by
  refine .of_front (stopsViable_pure 0) rfl fun t => ?_
  cases t with
  | keyword k word =>
    cases k with
    | offset =>
      have counted : StopsViable OffsetTokens [.keyword .offset word] integer :=
        readsOne_integer.stopsViable ⟨[.integer 0], 0, .offset word 0⟩
      exact .take counted fun _ => rfl
    | _ => exact .leave (stopsViable_pure 0) fun _ => rfl
  | _ => exact .leave (stopsViable_pure 0) fun _ => rfl

/-- The tokens of a clause that tells how many records to keep, or none. -/
def LimitTokens (ts : List Token) : Prop := ∃ limit, IsLimitClause ts limit

theorem stopsViable_limit : StopsViable LimitTokens [] limit := by
  refine .of_front (stopsViable_pure none) rfl fun t => ?_
  cases t with
  | keyword k word =>
    cases k with
    | limit =>
      have counted : StopsViable LimitTokens [.keyword .limit word] integer :=
        readsOne_integer.stopsViable ⟨[.integer 0], some 0, .limit word 0⟩
      exact .take (counted.map some) fun _ => rfl
    | _ => exact .leave (stopsViable_pure none) fun _ => rfl
  | _ => exact .leave (stopsViable_pure none) fun _ => rfl

/-- The tokens of a clause that names an index, or none. -/
def UsingTokens (ts : List Token) : Prop := ∃ index?, IsUsingClause ts index?

theorem stopsViable_usingIndex : StopsViable UsingTokens [] usingIndex := by
  refine .of_front (stopsViable_pure none) rfl fun t => ?_
  cases t with
  | keyword k word =>
    cases k with
    | usingIndex =>
      have named : StopsViable UsingTokens [.keyword .usingIndex word] identifier :=
        readsOne_identifier.stopsViable ⟨[.identifier "id"], some "id", .index word "id"⟩
      exact .take (named.map some) fun _ => rfl
    | _ => exact .leave (stopsViable_pure none) fun _ => rfl
  | _ => exact .leave (stopsViable_pure none) fun _ => rfl

theorem stopsViable_bounds : StopsViable L before bounds := by
  refine .of_front (stopsViable_pure none) rfl fun t => ?_
  cases t with
  | keyword k word =>
    cases k with
    | inclusive => exact .take (stopsViable_pure (some true)) fun _ => rfl
    | exclusive => exact .take (stopsViable_pure (some false)) fun _ => rfl
    | _ => exact .leave (stopsViable_pure none) fun _ => rfl
  | _ => exact .leave (stopsViable_pure none) fun _ => rfl

/-- The tokens that tell how to retrieve records, or none. -/
def RetrievalTokens (ts : List Token) : Prop := ∃ retrieval, IsRetrieval ts retrieval

/-- What follows the keyword of a retrieval by keys. -/
theorem stopsViable_keys (word : String) :
    StopsViable RetrievalTokens [.keyword .get word] fun ts => (do
      let (keys, rest) ← values ts
      let (index?, rest) ← usingIndex rest
      return (Retrieval.ofKeys keys index?, rest)) := by
  have listed : StopsViable RetrievalTokens [.keyword .get word] values := by
    refine stopsViable_values.within fun used ⟨keys, items⟩ => ?_
    have phrase : RetrievalTokens ((.keyword .get word :: used) ++ []) :=
      ⟨_, .get word items .empty⟩
    exact (isViable_of_phrase phrase).of_append
  have indexed {used : List Token} {keys : List Value} (items : IsListOf IsValue used keys) :
      StopsViable RetrievalTokens ([.keyword .get word] ++ used) usingIndex :=
    stopsViable_usingIndex.within fun more ⟨index?, clause⟩ =>
      isViable_of_phrase ⟨.ofKeys keys index?, .get word items clause⟩
  exact .bind reads_values.sound listed fun used keys items =>
    (indexed items).map (Retrieval.ofKeys keys)

/-- What follows the keyword of a retrieval by a range. -/
theorem stopsViable_range (word : String) :
    StopsViable RetrievalTokens [.keyword .between word] fun ts => (do
      let (left, rest) ← value ts
      let ((), rest) ← keyword .and rest
      let (right, rest) ← value rest
      let (index?, rest) ← usingIndex rest
      let (inclusive?, rest) ← bounds rest
      return (Retrieval.between left right index? inclusive?, rest)) := by
  have whole {ts us vs : List Token} {left right : Value} {index? : Option String}
      (conjunction : String) (first : IsValue ts left) (last : IsValue us right)
      (index : IsUsingClause vs index?) : IsViable RetrievalTokens
        ([.keyword .between word] ++ ts ++ [.keyword .and conjunction] ++ us ++ vs) := by
    refine isViable_of_phrase ⟨.between left right index? none, ?_⟩
    have phrase := IsRetrieval.between word conjunction first last index .empty
    simpa using phrase
  have begun {ts : List Token} {left : Value} (first : IsValue ts left) :
      IsViable RetrievalTokens ([.keyword .between word] ++ ts) :=
    (whole "and" first (.null "null") .empty).of_append.of_append.of_append
  have bounded {ts : List Token} {left : Value} (first : IsValue ts left) (used : List Token)
      (_ : Unit) (joins : ∃ conjunction, used = [.keyword .and conjunction]) :
      StopsViable RetrievalTokens ([.keyword .between word] ++ ts ++ used) fun ts => (do
        let (right, rest) ← value ts
        let (index?, rest) ← usingIndex rest
        let (inclusive?, rest) ← bounds rest
        return (Retrieval.between left right index? inclusive?, rest)) := by
    obtain ⟨conjunction, rfl⟩ := joins
    exact .bind reads_value.sound (stopsViable_value.within fun us ⟨right, last⟩ =>
        (whole conjunction first last .empty).of_append)
      fun us right last =>
    .bind reads_usingIndex.sound (stopsViable_usingIndex.within fun vs ⟨index?, index⟩ =>
        whole conjunction first last index)
      fun vs index? _ =>
    stopsViable_bounds.map fun inclusive? => Retrieval.between left right index? inclusive?
  exact .bind reads_value.sound (stopsViable_value.within fun used ⟨left, first⟩ => begun first)
    fun ts left first =>
      .bind (isSound_keyword .and) ((readsOne_keyword .and).stopsViable (begun first))
        (bounded first)

theorem stopsViable_retrieval : StopsViable RetrievalTokens [] retrieval := by
  refine .of_front (stopsViable_pure .scan) rfl fun t => ?_
  cases t with
  | keyword k word =>
    cases k with
    | get => exact .take (stopsViable_keys word) fun _ => rfl
    | between => exact .take (stopsViable_range word) fun _ => rfl
    | _ => exact .leave (stopsViable_pure .scan) fun _ => rfl
  | _ => exact .leave (stopsViable_pure .scan) fun _ => rfl

/-! ## Statements -/

theorem stopsViable_statement : StopsViable StatementTokens [] statement := by
  have whole {rs ws ss os ls : List Token} {retrieval : Retrieval} {conditions : List Condition}
      {sortBy : List SortKey} {offset : Int} {limit : Option Int}
      (retrieved : IsRetrieval rs retrieval) (asked : IsWhereClause ws conditions)
      (sorted : IsSortClause ss sortBy) (skipped : IsOffsetClause os offset)
      (limited : IsLimitClause ls limit) :
      IsViable StatementTokens ([] ++ rs ++ ws ++ ss ++ os ++ ls) := by
    have query := IsQuery.clauses retrieved asked sorted skipped limited
    refine isViable_of_phrase ⟨⟨retrieval, conditions, sortBy, offset, limit⟩, .plain ?_⟩
    simpa using query
  exact .bind reads_retrieval.sound (stopsViable_retrieval.within fun rs ⟨_, retrieved⟩ =>
      (whole retrieved .empty .empty .empty .empty).of_append.of_append.of_append.of_append)
    fun rs retrieval retrieved =>
  .bind reads_conditions.sound (stopsViable_conditions.within fun ws ⟨_, asked⟩ =>
      (whole retrieved asked .empty .empty .empty).of_append.of_append.of_append)
    fun ws conditions asked =>
  .bind reads_sortBy.sound (stopsViable_sortBy.within fun ss ⟨_, sorted⟩ =>
      (whole retrieved asked sorted .empty .empty).of_append.of_append)
    fun ss sortBy sorted =>
  .bind reads_offset.sound (stopsViable_offset.within fun os ⟨_, skipped⟩ =>
      (whole retrieved asked sorted skipped .empty).of_append)
    fun os offset skipped =>
  .bind reads_limit.sound (stopsViable_limit.within fun ls ⟨_, limited⟩ =>
      whole retrieved asked sorted skipped limited)
    fun ls limit _ => stopsViable_ok fun ts =>
      (Statement.mk retrieval conditions sortBy offset limit, afterSemicolon ts)

end Read

/-! ## Statements from tokens -/

/-- The tokens are left from the first one that no statement can hold behind those before it; none
are left where all of them begin a statement without being one. -/
inductive IsStuck : List Token → List Token → Prop where
  | token {used : List Token} {t : Token} {later : List Token}
      (viable : IsViable StatementTokens used) (stuck : ¬ IsViable StatementTokens (used ++ [t])) :
      IsStuck (used ++ t :: later) (t :: later)
  | ending {ts : List Token} (viable : IsViable StatementTokens ts)
      (unfinished : ¬ StatementTokens ts) : IsStuck ts []

theorem IsStuck.exists_used {ts rest : List Token} (stuck : IsStuck ts rest) :
    ∃ used, ts = used ++ rest ∧ IsViable StatementTokens used := by
  cases stuck with
  | token viable _ => exact ⟨_, rfl, viable⟩
  | ending viable _ => exact ⟨ts, (List.append_nil ts).symm, viable⟩

theorem IsStuck.not_statement {ts rest : List Token} (stuck : IsStuck ts rest) :
    ¬ StatementTokens ts := by
  intro phrase
  cases stuck with
  | token _ stuck =>
    rw [List.append_cons] at phrase
    exact stuck (isViable_of_phrase phrase).of_append
  | ending _ unfinished => exact unfinished phrase

/-- No tokens that reach further than the stuck ones are viable. -/
theorem IsStuck.length_le {ts rest used later : List Token} (stuck : IsStuck ts rest)
    (split : ts = used ++ later) (viable : IsViable StatementTokens used) :
    rest.length ≤ later.length := by
  cases stuck with
  | ending _ _ => exact Nat.zero_le _
  | @token before t rest _ stuck =>
    by_contra longer
    have longer : (before ++ [t]).length ≤ used.length := by
      have lengths := congrArg List.length split
      simp only [List.length_append, List.length_cons, List.length_nil] at lengths longer ⊢
      omega
    have front : before ++ [t] <+: used ++ later := by
      rw [← split, List.append_cons before t rest]
      exact List.prefix_append _ _
    obtain ⟨more, rfl⟩ :=
      List.prefix_of_prefix_length_le front (List.prefix_append _ _) longer
    exact stuck viable.of_append

theorem IsStuck.unique {ts rest other : List Token} (stuck : IsStuck ts rest)
    (stuck' : IsStuck ts other) : rest = other := by
  obtain ⟨used, split, viable⟩ := stuck.exists_used
  obtain ⟨used', split', viable'⟩ := stuck'.exists_used
  have lengths := Nat.le_antisymm (stuck.length_le split' viable') (stuck'.length_le split viable)
  exact (List.append_inj' (split.symm.trans split') lengths).2

namespace Statement

theorem ofTokens_of_isStatement {ts : List Token} {s : Statement} (phrase : IsStatement ts s) :
    ofTokens ts = .ok s := by
  cases phrase with
  | semicolon query =>
    refine ofTokens_eq_ok.mpr (Read.statement_of_isQuery query ?_)
    exact avoids_of_front rfl (by decide)
  | plain query =>
    have read := Read.statement_of_isQuery query (avoids_nil _)
    rw [List.append_nil] at read
    exact ofTokens_eq_ok.mpr read

theorem isStatement_of_ofTokens {ts : List Token} {s : Statement} (told : ofTokens ts = .ok s) :
    IsStatement ts s := by
  obtain ⟨used, rfl, phrase⟩ := Read.isSound_statement (ofTokens_eq_ok.mp told)
  rwa [List.append_nil]

/-- The reader leaves a token only if it would leave it whatever follows. -/
theorem not_isViable_of_left {used later : List Token} {t : Token} {s? : Option Statement}
    (read : Read.statement (used ++ t :: later) = outcome s? (t :: later)) :
    ¬ IsViable StatementTokens (used ++ [t]) := by
  rintro ⟨more, s, phrase⟩
  rw [List.append_assoc] at phrase
  have whole : Read.statement (used ++ t :: more) = outcome (some s) [] :=
    ofTokens_eq_ok.mp (ofTokens_of_isStatement phrase)
  have stopped := @IsLocal.foresight _ _ Read.isLocal_statement used [] later t s? read more
  cases (outcome_inj.mp (stopped.symm.trans whole)).2

/-- Reading tokens fails at the first one that no statement can hold behind those before it, and at
their end if they begin a statement without being one. -/
theorem ofTokens_eq_error {ts rest : List Token} : ofTokens ts = .error rest ↔ IsStuck ts rest := by
  have stuck : ∀ {left}, ofTokens ts = .error left → IsStuck ts left := by
    intro left failed
    have unfinished : ¬ StatementTokens ts := by
      rintro ⟨s, phrase⟩
      rw [ofTokens_of_isStatement phrase] at failed
      cases failed
    unfold ofTokens at failed
    split at failed
    · cases failed
    · rename_i s _ more read
      cases failed
      obtain ⟨used, rfl, phrase⟩ := Read.isSound_statement read
      have viable : IsViable StatementTokens used := isViable_of_phrase ⟨s, phrase⟩
      have kept : Read.statement (used ++ left) = outcome (some s) left := read
      cases left with
      | nil => exact absurd rfl more
      | cons t later => exact .token viable (not_isViable_of_left kept)
    · rename_i left read
      cases failed
      obtain ⟨used, rfl, viable⟩ := Read.stopsViable_statement.viable read
      have kept : Read.statement (used ++ left) = outcome none left := read
      cases left with
      | nil =>
        rw [List.append_nil] at unfinished ⊢
        exact .ending viable unfinished
      | cons t later => exact .token viable (not_isViable_of_left kept)
  refine ⟨stuck, fun blamed => ?_⟩
  cases told : ofTokens ts with
  | ok s => exact absurd ⟨s, isStatement_of_ofTokens told⟩ blamed.not_statement
  | error left => rw [(stuck told).unique blamed]

end Statement

end RecordQuery.Itq
