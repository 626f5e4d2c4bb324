import RecordQuery.Proofs.Itq.Reading.Conditions

/-!
# Reading statements

Any clause of a statement may be missing. Each one opens with a keyword of its own, and none of these
continues what may stand before it, so a missing clause is never taken for a later one. Tokens are a
statement just when the grammar derives them, and then the one statement that it attaches to them.
-/

namespace RecordQuery.Itq

open Grammar

namespace Read

/-! ## Sort keys -/

theorem reads_sortKey :
    Reads sortKey IsSortKey [.symbol .dot, .keyword .ascending, .keyword .descending] where
  sound := by
    intro ts key rest read
    rcases bind_eq_ok.mp read with ⟨⟨field, others⟩, path, told⟩
    rcases reads_path.sound path with ⟨used, rfl, named⟩
    dsimp only at told
    split at told
    · cases told
      exact ⟨_, (List.append_assoc _ [_] _).symm, .ascending _ named⟩
    · cases told
      exact ⟨_, (List.append_assoc _ [_] _).symm, .descending _ named⟩
    · cases told
      exact ⟨used, rfl, .plain named⟩
  complete := by
    intro used key rest phrase avoids
    cases phrase with
    | plain path =>
      refine bind_eq_ok.mpr ⟨_, reads_path.complete path (avoids.mono (by simp)), ?_⟩
      dsimp only
      split
      · exact absurd rfl (avoids _ (by simp))
      · exact absurd rfl (avoids _ (by simp))
      · rfl
    | ascending word path =>
      rw [List.append_assoc]
      have ended : Avoids [.symbol .dot] (.keyword .ascending word :: rest) :=
        avoids_of_front rfl (by decide)
      exact bind_eq_ok.mpr ⟨_, reads_path.complete path ended, rfl⟩
    | descending word path =>
      rw [List.append_assoc]
      have ended : Avoids [.symbol .dot] (.keyword .descending word :: rest) :=
        avoids_of_front rfl (by decide)
      exact bind_eq_ok.mpr ⟨_, reads_path.complete path ended, rfl⟩

theorem isSound_sortKeysWithin (fuel : Nat) :
    IsSound (sortKeysWithin fuel) (IsListOf IsSortKey) := by
  induction fuel with
  | zero =>
    intro ts keys rest read
    cases read
  | succ fuel ih =>
    intro ts keys rest read
    rw [sortKeysWithin] at read
    rcases bind_eq_ok.mp read with ⟨⟨key, others⟩, first, continued⟩
    rcases reads_sortKey.sound first with ⟨used, rfl, phrase⟩
    dsimp only at continued
    split at continued
    · rcases bind_eq_ok.mp continued with ⟨⟨keys, others'⟩, following, same⟩
      cases same
      rcases ih following with ⟨used', rfl, phrase'⟩
      exact ⟨_, (List.append_assoc _ (_ :: _) _).symm, IsListOf.cons phrase phrase'⟩
    · cases continued
      exact ⟨used, rfl, .single phrase⟩

theorem sortKeysWithin_complete {fuel : Nat} {used rest : List Token} {keys : List SortKey}
    (phrase : IsListOf IsSortKey used keys) (bound : used.length < fuel)
    (avoids : Avoids [.symbol .dot, .keyword .ascending, .keyword .descending, .symbol .comma]
      rest) : sortKeysWithin fuel (used ++ rest) = .ok (keys, rest) := by
  induction fuel generalizing used keys with
  | zero => exact absurd bound (Nat.not_lt_zero _)
  | succ fuel ih =>
    rw [sortKeysWithin]
    obtain ⟨us, key, first, ⟨rfl, rfl⟩ | ⟨ts, others, list, rfl, rfl⟩⟩ := phrase.uncons
    · refine bind_eq_ok.mpr ⟨_, reads_sortKey.complete first (avoids.mono (by simp)), ?_⟩
      dsimp only
      split
      · exact absurd rfl (avoids _ (by simp))
      · rfl
    · rw [List.length_append, List.length_cons] at bound
      rw [List.append_assoc]
      have ended : Avoids [.symbol .dot, .keyword .ascending, .keyword .descending]
          (.symbol .comma :: ts ++ rest) := avoids_of_front rfl (by decide)
      refine bind_eq_ok.mpr ⟨_, reads_sortKey.complete first ended, ?_⟩
      exact bind_eq_ok.mpr ⟨_, ih list (by omega), rfl⟩

theorem reads_sortBy : Reads sortBy IsSortClause
    [.keyword .sort, .symbol .dot, .keyword .ascending, .keyword .descending, .symbol .comma] where
  sound := by
    intro ts keys rest read
    unfold sortBy at read
    split at read
    · rename_i word ts
      rcases bind_eq_ok.mp read with ⟨⟨_, others⟩, followed, keys⟩
      rcases keyword_eq_ok.mp followed with ⟨follower, rfl⟩
      rcases isSound_sortKeysWithin _ keys with ⟨used, rfl, phrase⟩
      exact ⟨_, rfl, .keys word follower phrase⟩
    · cases read
      exact ⟨[], rfl, .empty⟩
  complete := by
    intro used keys rest phrase avoids
    cases phrase with
    | empty =>
      rw [List.nil_append]
      unfold sortBy
      split
      · exact absurd rfl (avoids _ (by simp))
      · rfl
    | keys word follower phrase =>
      refine bind_eq_ok.mpr ⟨_, keyword_eq_ok.mpr ⟨follower, rfl⟩, ?_⟩
      refine sortKeysWithin_complete phrase ?_ (avoids.mono (by simp))
      rw [List.append_eq, List.length_append]
      omega

/-! ## Clauses of one or two tokens -/

theorem reads_offset : Reads offset IsOffsetClause [.keyword .offset] where
  sound := by
    intro ts n rest read
    unfold offset at read
    split at read
    · rename_i word ts
      rw [integer_eq_ok.mp read]
      exact ⟨[_, _], rfl, .offset word n⟩
    · cases read
      exact ⟨[], rfl, .empty⟩
  complete := by
    intro used n rest phrase avoids
    cases phrase with
    | empty =>
      rw [List.nil_append]
      unfold offset
      split
      · exact absurd rfl (avoids _ (by simp))
      · rfl
    | offset word n => rfl

theorem reads_limit : Reads limit IsLimitClause [.keyword .limit] where
  sound := by
    intro ts n rest read
    unfold limit at read
    split at read
    · rename_i word ts
      rcases bind_eq_ok.mp read with ⟨⟨n, others⟩, count, read⟩
      cases read
      rw [integer_eq_ok.mp count]
      exact ⟨[_, _], rfl, .limit word n⟩
    · cases read
      exact ⟨[], rfl, .empty⟩
  complete := by
    intro used n rest phrase avoids
    cases phrase with
    | empty =>
      rw [List.nil_append]
      unfold limit
      split
      · exact absurd rfl (avoids _ (by simp))
      · rfl
    | limit word n => rfl

theorem reads_usingIndex : Reads usingIndex IsUsingClause [.keyword .usingIndex] where
  sound := by
    intro ts name rest read
    unfold usingIndex at read
    split at read
    · rename_i word ts
      rcases bind_eq_ok.mp read with ⟨⟨name, others⟩, index, read⟩
      cases read
      rw [identifier_eq_ok.mp index]
      exact ⟨[_, _], rfl, .index word name⟩
    · cases read
      exact ⟨[], rfl, .empty⟩
  complete := by
    intro used name rest phrase avoids
    cases phrase with
    | empty =>
      rw [List.nil_append]
      unfold usingIndex
      split
      · exact absurd rfl (avoids _ (by simp))
      · rfl
    | index word name => rfl

theorem reads_bounds :
    Reads bounds IsRangeClause [.keyword .inclusive, .keyword .exclusive] where
  sound := by
    intro ts inclusive? rest read
    unfold bounds at read
    split at read <;> cases read
    · exact ⟨[_], rfl, .inclusive _⟩
    · exact ⟨[_], rfl, .exclusive _⟩
    · exact ⟨[], rfl, .empty⟩
  complete := by
    intro used inclusive? rest phrase avoids
    cases phrase with
    | empty =>
      rw [List.nil_append]
      unfold bounds
      split
      · exact absurd rfl (avoids _ (by simp))
      · exact absurd rfl (avoids _ (by simp))
      · rfl
    | inclusive word => rfl
    | exclusive word => rfl

/-! ## Openings of clauses -/

theorem opens_usingClause {ts : List Token} {index? : Option String}
    (phrase : IsUsingClause ts index?) : Opens (.keyword .usingIndex) ts := by
  cases phrase with
  | empty => exact .inl rfl
  | index word name => exact .inr rfl

theorem opens_whereClause {ts : List Token} {cs : List Condition}
    (phrase : IsWhereClause ts cs) : Opens (.keyword .condition) ts := by
  cases phrase with
  | empty => exact .inl rfl
  | conditions word conditions => exact .inr rfl

theorem opens_sortClause {ts : List Token} {keys : List SortKey}
    (phrase : IsSortClause ts keys) : Opens (.keyword .sort) ts := by
  cases phrase with
  | empty => exact .inl rfl
  | keys word follower keys => exact .inr rfl

theorem opens_offsetClause {ts : List Token} {n : Int} (phrase : IsOffsetClause ts n) :
    Opens (.keyword .offset) ts := by
  cases phrase with
  | empty => exact .inl rfl
  | offset word n => exact .inr rfl

theorem opens_limitClause {ts : List Token} {limit : Option Int} (phrase : IsLimitClause ts limit) :
    Opens (.keyword .limit) ts := by
  cases phrase with
  | empty => exact .inl rfl
  | limit word n => exact .inr rfl

/-- A range clause has two openings, so it may come before whatever avoids other marks. -/
theorem avoids_rangeClause {ts rest : List Token} {inclusive? : Option Bool}
    (phrase : IsRangeClause ts inclusive?) (avoids : Avoids [.keyword .usingIndex] rest) :
    Avoids [.keyword .usingIndex] (ts ++ rest) := by
  cases phrase with
  | empty => exact avoids
  | inclusive word => exact avoids_of_front rfl (by decide)
  | exclusive word => exact avoids_of_front rfl (by decide)

/-! ## Retrievals and statements -/

theorem reads_retrieval : Reads retrieval IsRetrieval
    [.keyword .get, .keyword .between, .symbol .comma, .keyword .usingIndex,
      .keyword .inclusive, .keyword .exclusive] where
  sound := by
    intro ts retrieved rest read
    unfold retrieval at read
    split at read
    · rename_i word ts
      rcases bind_eq_ok.mp read with ⟨⟨keys, others⟩, listed, indexed⟩
      rcases bind_eq_ok.mp indexed with ⟨⟨index?, others'⟩, index, same⟩
      cases same
      rcases reads_values.sound listed with ⟨us, rfl, values⟩
      rcases reads_usingIndex.sound index with ⟨vs, rfl, clause⟩
      refine ⟨_, ?_, .get word values clause⟩
      rw [List.cons_append, List.append_assoc]
    · rename_i word ts
      rcases bind_eq_ok.mp read with ⟨⟨left, others⟩, first, conjoined⟩
      rcases bind_eq_ok.mp conjoined with ⟨⟨_, others⟩, joined, bounded⟩
      rcases bind_eq_ok.mp bounded with ⟨⟨right, others⟩, last, indexed⟩
      rcases bind_eq_ok.mp indexed with ⟨⟨index?, others⟩, index, ranged⟩
      rcases bind_eq_ok.mp ranged with ⟨⟨inclusive?, others⟩, range, same⟩
      cases same
      rcases reads_value.sound first with ⟨us, rfl, leftmost⟩
      rcases keyword_eq_ok.mp joined with ⟨conjunction, rfl⟩
      rcases reads_value.sound last with ⟨vs, rfl, rightmost⟩
      rcases reads_usingIndex.sound index with ⟨ws, rfl, clause⟩
      rcases reads_bounds.sound range with ⟨xs, rfl, bounds⟩
      refine ⟨_, ?_, .between word conjunction leftmost rightmost clause bounds⟩
      simp
    · cases read
      exact ⟨[], rfl, .scan⟩
  complete := by
    intro used retrieved rest phrase avoids
    cases phrase with
    | scan =>
      rw [List.nil_append]
      unfold retrieval
      split
      · exact absurd rfl (avoids _ (by simp))
      · exact absurd rfl (avoids _ (by simp))
      · rfl
    | @get ts us keys index? word values index =>
      have ended : Avoids [.symbol .comma] (us ++ rest) :=
        .append (opens_usingClause index) (by decide) (avoids.mono (by simp))
      rw [List.cons_append, List.append_assoc]
      refine bind_eq_ok.mpr ⟨_, reads_values.complete values ended, ?_⟩
      exact bind_eq_ok.mpr ⟨_, reads_usingIndex.complete index (avoids.mono (by simp)), rfl⟩
    | @between ts us vs ws left right index? inclusive? word conjunction first last index range =>
      have ended : Avoids [.keyword .usingIndex] (ws ++ rest) :=
        avoids_rangeClause range (avoids.mono (by simp))
      rw [List.cons_append, List.append_assoc, List.cons_append, List.append_assoc,
        List.append_assoc]
      refine bind_eq_ok.mpr ⟨_, reads_value.complete first (avoids_none _), ?_⟩
      refine bind_eq_ok.mpr ⟨_, keyword_eq_ok.mpr ⟨conjunction, rfl⟩, ?_⟩
      refine bind_eq_ok.mpr ⟨_, reads_value.complete last (avoids_none _), ?_⟩
      refine bind_eq_ok.mpr ⟨_, reads_usingIndex.complete index ended, ?_⟩
      exact bind_eq_ok.mpr ⟨_, reads_bounds.complete range (avoids.mono (by simp)), rfl⟩

/-- The marks that some part of a query would go on with. -/
def queryMarks : List Mark := [
  .keyword .get, .keyword .between, .symbol .comma, .keyword .usingIndex, .keyword .inclusive,
  .keyword .exclusive, .keyword .condition, .keyword .and, .keyword .or, .keyword .sort,
  .symbol .dot, .keyword .ascending, .keyword .descending, .keyword .offset, .keyword .limit]

/-- The tokens after a semicolon, if there is one. -/
def afterSemicolon : List Token → List Token
  | .symbol .semicolon :: rest => rest
  | rest => rest

theorem statement_of_isQuery {used rest : List Token} {s : Statement} (phrase : IsQuery used s)
    (avoids : Avoids queryMarks rest) :
    statement (used ++ rest) = .ok (s, afterSemicolon rest) := by
  obtain @⟨rs, ws, ss, os, ls, _, _, _, _, _, retrieved, asked, sorted, skipped, limited⟩ := phrase
  have limitOpens := opens_limitClause limited
  have offsetOpens := opens_offsetClause skipped
  have sortOpens := opens_sortClause sorted
  -- Each clause is followed by later clauses, and none of these opens with a mark that continues it.
  have afterOffset : Avoids [.keyword .offset] (ls ++ rest) :=
    .append limitOpens (by decide) (avoids.mono (by simp [queryMarks]))
  have afterSort : Avoids [.keyword .sort, .symbol .dot, .keyword .ascending,
      .keyword .descending, .symbol .comma] (os ++ (ls ++ rest)) :=
    .append offsetOpens (by decide)
      (.append limitOpens (by decide) (avoids.mono (by simp [queryMarks])))
  have afterWhere : Avoids [.keyword .condition, .keyword .and, .keyword .or]
      (ss ++ (os ++ (ls ++ rest))) :=
    .append sortOpens (by decide) (.append offsetOpens (by decide)
      (.append limitOpens (by decide) (avoids.mono (by simp [queryMarks]))))
  have afterRetrieval : Avoids [.keyword .get, .keyword .between, .symbol .comma,
      .keyword .usingIndex, .keyword .inclusive, .keyword .exclusive]
      (ws ++ (ss ++ (os ++ (ls ++ rest)))) :=
    .append (opens_whereClause asked) (by decide) (.append sortOpens (by decide)
      (.append offsetOpens (by decide)
        (.append limitOpens (by decide) (avoids.mono (by simp [queryMarks])))))
  rw [List.append_assoc, List.append_assoc, List.append_assoc, List.append_assoc]
  refine bind_eq_ok.mpr ⟨_, reads_retrieval.complete retrieved afterRetrieval, ?_⟩
  refine bind_eq_ok.mpr ⟨_, reads_conditions.complete asked afterWhere, ?_⟩
  refine bind_eq_ok.mpr ⟨_, reads_sortBy.complete sorted afterSort, ?_⟩
  refine bind_eq_ok.mpr ⟨_, reads_offset.complete skipped afterOffset, ?_⟩
  exact bind_eq_ok.mpr ⟨_, reads_limit.complete limited (avoids.mono (by simp [queryMarks])), rfl⟩

/-- A query takes a semicolon after it into its statement. -/
theorem isStatement_of_isQuery {ts : List Token} {s : Statement} (query : IsQuery ts s)
    (rest : List Token) :
    ∃ used, ts ++ rest = used ++ afterSemicolon rest ∧ IsStatement used s := by
  unfold afterSemicolon
  split
  · exact ⟨_, (List.append_assoc _ [_] _).symm, .semicolon query⟩
  · exact ⟨ts, rfl, .plain query⟩

theorem isSound_statement : IsSound statement IsStatement := by
  intro ts s rest read
  rcases bind_eq_ok.mp read with ⟨⟨retrieved, others⟩, retrieval, asking⟩
  rcases bind_eq_ok.mp asking with ⟨⟨conditions, others⟩, asked, sorting⟩
  rcases bind_eq_ok.mp sorting with ⟨⟨sortBy, others⟩, sorted, skipping⟩
  rcases bind_eq_ok.mp skipping with ⟨⟨offset, others⟩, skipped, limiting⟩
  rcases bind_eq_ok.mp limiting with ⟨⟨limit, others⟩, limited, ended⟩
  cases ended
  rcases reads_retrieval.sound retrieval with ⟨rs, rfl, retrievalPhrase⟩
  rcases reads_conditions.sound asked with ⟨ws, rfl, whereClause⟩
  rcases reads_sortBy.sound sorted with ⟨ss, rfl, sortClause⟩
  rcases reads_offset.sound skipped with ⟨os, rfl, offsetClause⟩
  rcases reads_limit.sound limited with ⟨ls, rfl, limitClause⟩
  have query := IsQuery.clauses retrievalPhrase whereClause sortClause offsetClause limitClause
  rcases isStatement_of_isQuery query others with ⟨used, tokens, phrase⟩
  refine ⟨used, ?_, phrase⟩
  rw [List.append_assoc, List.append_assoc, List.append_assoc, List.append_assoc] at tokens
  exact tokens

end Read

/-! ## Statements -/

namespace Statement

theorem ofTokens_eq_ok {ts : List Token} {s : Statement} :
    ofTokens ts = .ok s ↔ Read.statement ts = .ok (s, []) := by
  constructor
  · intro told
    unfold ofTokens at told
    split at told
    · rename_i read
      cases told
      exact read
    · cases told
    · cases told
  · intro read
    rw [ofTokens, read]

end Statement

end RecordQuery.Itq
