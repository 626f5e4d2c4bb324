import RecordQuery.Itq.Reading

/-!
# The grammar of statements

The productions of the query language, one constructor each. A phrase is a list of tokens, and every
production attaches a meaning to the phrases it derives. Lists grow at their right end, so values,
conditions and sort keys associate to the left.
-/

namespace RecordQuery.Itq.Grammar

/-! ## Values -/

/-- One or more phrases with commas between them. -/
inductive IsListOf {α : Type} (Item : List Token → α → Prop) : List Token → List α → Prop where
  | single {ts : List Token} {a : α} (item : Item ts a) : IsListOf Item ts [a]
  | more {ts us : List Token} {as : List α} {a : α} (before : IsListOf Item ts as)
      (item : Item us a) : IsListOf Item (ts ++ .symbol .comma :: us) (as ++ [a])

mutual
/-- A value: a literal, or a list literal. -/
inductive IsValue : List Token → Value → Prop where
  | integer (n : Int) : IsValue [.integer n] (.int n)
  | float (x : Binary64) : IsValue [.float x] (.float x)
  | string (s : CodeText) : IsValue [.string s] (.str s.text)
  | true (word : String) : IsValue [.keyword .true word] (.bool Bool.true)
  | false (word : String) : IsValue [.keyword .false word] (.bool Bool.false)
  | null (word : String) : IsValue [.keyword .null word] .null
  | list {ts : List Token} {v : Value} (list : IsListLiteral ts v) : IsValue ts v

/-- A list literal: values in brackets, or none. -/
inductive IsListLiteral : List Token → Value → Prop where
  | empty : IsListLiteral [.symbol .leftBracket, .symbol .rightBracket] (.list [])
  | values {ts : List Token} {vs : List Value} (items : IsListOf IsValue ts vs) :
      IsListLiteral (.symbol .leftBracket :: (ts ++ [.symbol .rightBracket])) (.list vs)
end

/-! ## Conditions -/

/-- A field path: names with dots between them. -/
inductive IsPath : List Token → String → Prop where
  | single (name : String) : IsPath [.identifier name] name
  | dotted {ts : List Token} {path : String} (before : IsPath ts path) (name : String) :
      IsPath (ts ++ [.symbol .dot, .identifier name]) (path ++ "." ++ name)

/-- The symbols of the comparisons; a single sign of equality compares loosely. -/
inductive IsComparison : Token → Comparison → Prop where
  | assign : IsComparison (.symbol .assign) .equal
  | equal : IsComparison (.symbol .equal) .equal
  | strictEqual : IsComparison (.symbol .strictEqual) .strictEqual
  | notEqual : IsComparison (.symbol .notEqual) .notEqual
  | strictNotEqual : IsComparison (.symbol .strictNotEqual) .strictNotEqual
  | less : IsComparison (.symbol .less) .less
  | lessOrEqual : IsComparison (.symbol .lessOrEqual) .lessOrEqual
  | greater : IsComparison (.symbol .greater) .greater
  | greaterOrEqual : IsComparison (.symbol .greaterOrEqual) .greaterOrEqual

/-- A word relation and what it relates to: a list literal, any value, or a pattern. -/
inductive IsWordRelation : List Token → WordRelation → Value → Prop where
  | isIn {ts : List Token} {v : Value} (word : String) (list : IsListLiteral ts v) :
      IsWordRelation (.keyword .isIn word :: ts) .isIn v
  | intersects {ts : List Token} {v : Value} (word : String) (list : IsListLiteral ts v) :
      IsWordRelation (.keyword .intersects word :: ts) .intersects v
  | contains {ts : List Token} {v : Value} (word : String) (value : IsValue ts v) :
      IsWordRelation (.keyword .contains word :: ts) .contains v
  | like (word : String) (pattern : CodeText) :
      IsWordRelation [.keyword .like word, .string pattern] .like (.str pattern.text)
  | ilike (word : String) (pattern : CodeText) :
      IsWordRelation [.keyword .ilike word, .string pattern] .ilike (.str pattern.text)

/-- A condition by itself, which is not joined with `or`. -/
inductive IsCondition : List Token → Condition → Prop where
  | comparison {ts us : List Token} {t : Token} {field : String} {c : Comparison} {v : Value}
      (path : IsPath ts field) (sign : IsComparison t c) (value : IsValue us v) :
      IsCondition (ts ++ t :: us) ⟨field, .comparison c, v, false⟩
  | word {ts us : List Token} {field : String} {w : WordRelation} {v : Value}
      (path : IsPath ts field) (related : IsWordRelation us w v) :
      IsCondition (ts ++ us) ⟨field, .word false w, v, false⟩
  | negated {ts us : List Token} {field : String} {w : WordRelation} {v : Value} (word : String)
      (path : IsPath ts field) (related : IsWordRelation us w v) :
      IsCondition (ts ++ .keyword .not word :: us) ⟨field, .word true w, v, false⟩

/-- One or more conditions joined by `and` and `or`. -/
inductive IsConditions : List Token → List Condition → Prop where
  | single {ts : List Token} {c : Condition} (condition : IsCondition ts c) : IsConditions ts [c]
  | and {ts us : List Token} {cs : List Condition} {c : Condition} (word : String)
      (before : IsConditions ts cs) (condition : IsCondition us c) :
      IsConditions (ts ++ .keyword .and word :: us) (cs ++ [c])
  | or {ts us : List Token} {cs : List Condition} {c : Condition} (word : String)
      (before : IsConditions ts cs) (condition : IsCondition us c) :
      IsConditions (ts ++ .keyword .or word :: us) (cs ++ [{ c with isOr := true }])

/-! ## Clauses -/

/-- The index to use, or nothing. -/
inductive IsUsingClause : List Token → Option String → Prop where
  | empty : IsUsingClause [] none
  | index (word name : String) :
      IsUsingClause [.keyword .usingIndex word, .identifier name] (some name)

/-- Whether the boundaries of a range belong to it, or nothing. -/
inductive IsRangeClause : List Token → Option Bool → Prop where
  | empty : IsRangeClause [] none
  | inclusive (word : String) : IsRangeClause [.keyword .inclusive word] (some true)
  | exclusive (word : String) : IsRangeClause [.keyword .exclusive word] (some false)

/-- How to retrieve records, or nothing. -/
inductive IsRetrieval : List Token → Retrieval → Prop where
  | scan : IsRetrieval [] .scan
  | get {ts us : List Token} {keys : List Value} {index? : Option String} (word : String)
      (values : IsListOf IsValue ts keys) (index : IsUsingClause us index?) :
      IsRetrieval (.keyword .get word :: (ts ++ us)) (.ofKeys keys index?)
  | between {ts us vs ws : List Token} {left right : Value} {index? : Option String}
      {inclusive? : Option Bool} (word conjunction : String) (first : IsValue ts left)
      (last : IsValue us right) (index : IsUsingClause vs index?)
      (range : IsRangeClause ws inclusive?) :
      IsRetrieval (.keyword .between word :: (ts ++ .keyword .and conjunction :: (us ++ (vs ++ ws))))
        (.between left right index? inclusive?)

/-- The conditions of a statement, or nothing. -/
inductive IsWhereClause : List Token → List Condition → Prop where
  | empty : IsWhereClause [] []
  | conditions {ts : List Token} {cs : List Condition} (word : String)
      (conditions : IsConditions ts cs) : IsWhereClause (.keyword .condition word :: ts) cs

/-- A field to sort by; the order is ascending unless told. -/
inductive IsSortKey : List Token → SortKey → Prop where
  | plain {ts : List Token} {field : String} (path : IsPath ts field) :
      IsSortKey ts ⟨field, .ascending⟩
  | ascending {ts : List Token} {field : String} (word : String) (path : IsPath ts field) :
      IsSortKey (ts ++ [.keyword .ascending word]) ⟨field, .ascending⟩
  | descending {ts : List Token} {field : String} (word : String) (path : IsPath ts field) :
      IsSortKey (ts ++ [.keyword .descending word]) ⟨field, .descending⟩

/-- What to sort by, or nothing. -/
inductive IsSortClause : List Token → List SortKey → Prop where
  | empty : IsSortClause [] []
  | keys {ts : List Token} {sortBy : List SortKey} (word follower : String)
      (keys : IsListOf IsSortKey ts sortBy) :
      IsSortClause (.keyword .sort word :: .keyword .sortBy follower :: ts) sortBy

/-- How many records to skip, or nothing. -/
inductive IsOffsetClause : List Token → Int → Prop where
  | empty : IsOffsetClause [] 0
  | offset (word : String) (n : Int) : IsOffsetClause [.keyword .offset word, .integer n] n

/-- How many records to keep, or nothing. -/
inductive IsLimitClause : List Token → Option Int → Prop where
  | empty : IsLimitClause [] none
  | limit (word : String) (n : Int) : IsLimitClause [.keyword .limit word, .integer n] (some n)

/-! ## Statements -/

/-- A query: a retrieval and four clauses in this order. -/
inductive IsQuery : List Token → Statement → Prop where
  | clauses {rs ws ss os ls : List Token} {retrieval : Retrieval} {conditions : List Condition}
      {sortBy : List SortKey} {offset : Int} {limit : Option Int} (retrieved : IsRetrieval rs retrieval)
      (asked : IsWhereClause ws conditions) (sorted : IsSortClause ss sortBy)
      (skipped : IsOffsetClause os offset) (limited : IsLimitClause ls limit) :
      IsQuery (rs ++ (ws ++ (ss ++ (os ++ ls)))) ⟨retrieval, conditions, sortBy, offset, limit⟩

/-- A statement: a query, which a semicolon may end. -/
inductive IsStatement : List Token → Statement → Prop where
  | semicolon {ts : List Token} {statement : Statement} (query : IsQuery ts statement) :
      IsStatement (ts ++ [.symbol .semicolon]) statement
  | plain {ts : List Token} {statement : Statement} (query : IsQuery ts statement) :
      IsStatement ts statement

end RecordQuery.Itq.Grammar
