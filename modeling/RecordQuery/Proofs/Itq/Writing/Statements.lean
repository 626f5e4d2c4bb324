import Mathlib
import RecordQuery.Proofs.Itq.Lexing.Division
import RecordQuery.Proofs.Itq.Writing.Tokens

/-!
# Writing statements

A statement is written clause by clause, in the order of the grammar (`Statement.written`). Reading the
text gives the statement back just when every condition has a value of the shape that the grammar
wants behind its relation (`Statement.ofText_written_iff`).
-/

namespace RecordQuery.Itq

open Grammar

/-! ## Values -/

/-- Some phrases with commas between them. -/
def separated (phrases : List (List Token)) : List Token := [Token.symbol .comma].intercalate phrases

theorem separated_cons_cons (ts us : List Token) (phrases : List (List Token)) :
    separated (ts :: us :: phrases) = ts ++ .symbol .comma :: separated (us :: phrases) := by
  rw [separated, List.intercalate_cons_cons, List.append_assoc]
  rfl

theorem isWritable_separated {phrases : List (List Token)}
    (writable : ∀ ts ∈ phrases, ∀ t ∈ ts, t.IsWritable) :
    ∀ t ∈ separated phrases, t.IsWritable := by
  induction phrases with
  | nil => exact List.forall_mem_nil _
  | cons ts phrases ih =>
    rw [List.forall_mem_cons] at writable
    cases phrases with
    | nil =>
      rw [separated, List.intercalate_singleton]
      exact writable.1
    | cons us phrases =>
      rw [separated_cons_cons, List.forall_mem_append, List.forall_mem_cons]
      exact ⟨writable.1, .symbol .comma, ih writable.2⟩

mutual
/-- The tokens of a value; those that no statement can hold have none. -/
def valueTokens : Value → List Token
  | .null => [Keyword.null.token]
  | .bool b => [if b then Keyword.true.token else Keyword.false.token]
  | .int n => [.integer n]
  | .float x => [.float x]
  | .str s => [.string s]
  | .list vs => .symbol .leftBracket :: (separated (tokensOfEach vs) ++ [.symbol .rightBracket])
  | _ => []
termination_by structural v => v

/-- The tokens of each of some values. -/
def tokensOfEach : List Value → List (List Token)
  | [] => []
  | v :: rest => valueTokens v :: tokensOfEach rest
termination_by structural vs => vs
end

theorem tokensOfEach_eq_map (vs : List Value) : tokensOfEach vs = vs.map valueTokens := by
  induction vs with
  | nil => rfl
  | cons v vs ih => rw [tokensOfEach, ih, List.map_cons]

/-- The values whose texts are read back: null, truth values, integers, texts and lists of them. -/
inductive IsWritableValue : Value → Prop where
  | null : IsWritableValue .null
  | bool (b : Bool) : IsWritableValue (.bool b)
  | integer (n : Int) : IsWritableValue (.int n)
  | string (s : String) : IsWritableValue (.str s)
  | list {vs : List Value} (items : ∀ v ∈ vs, IsWritableValue v) : IsWritableValue (.list vs)

theorem isListOf_separated {α : Type} {Item : List Token → α → Prop} {tokens : α → List Token}
    {as : List α} (filled : as ≠ []) (items : ∀ a ∈ as, Item (tokens a) a) :
    IsListOf Item (separated (as.map tokens)) as := by
  induction as with
  | nil => exact absurd rfl filled
  | cons a as ih =>
    rw [List.forall_mem_cons] at items
    cases as with
    | nil =>
      rw [List.map_singleton, separated, List.intercalate_singleton]
      exact .single items.1
    | cons b as =>
      have later := ih (List.cons_ne_nil b as) items.2
      rw [List.map_cons, List.map_cons, separated_cons_cons]
      exact IsListOf.cons items.1 later

theorem isListLiteral_valueTokens {vs : List Value} (items : ∀ v ∈ vs, IsValue (valueTokens v) v) :
    IsListLiteral (valueTokens (.list vs)) (.list vs) := by
  rw [valueTokens, tokensOfEach_eq_map]
  rcases eq_or_ne vs [] with rfl | filled
  · exact .empty
  · exact .values (isListOf_separated filled items)

theorem isValue_valueTokens {v : Value} (writable : IsWritableValue v) :
    IsValue (valueTokens v) v := by
  induction writable with
  | null => exact .null _
  | bool b =>
    cases b with
    | false => exact .false _
    | true => exact .true _
  | integer n => exact .integer n
  | string s =>
    have read := IsValue.string (CodeText.ofString s)
    rwa [CodeText.text_ofString] at read
  | list _ ih => exact .list (isListLiteral_valueTokens ih)

theorem isListLiteral_of_isWritable {vs : List Value} (writable : IsWritableValue (.list vs)) :
    IsListLiteral (valueTokens (.list vs)) (.list vs) := by
  cases writable with
  | list items => exact isListLiteral_valueTokens fun v member => isValue_valueTokens (items v member)

theorem isWritable_valueTokens {v : Value} (writable : IsWritableValue v) :
    ∀ t ∈ valueTokens v, t.IsWritable := by
  induction writable with
  | null => exact List.forall_mem_singleton.mpr (.keyword .null)
  | bool b =>
    refine List.forall_mem_singleton.mpr ?_
    cases b with
    | false => exact .keyword .false
    | true => exact .keyword .true
  | integer n => exact List.forall_mem_singleton.mpr (.integer n)
  | string s => exact List.forall_mem_singleton.mpr (.string s)
  | list _ ih =>
    rw [valueTokens, tokensOfEach_eq_map, List.forall_mem_cons, List.forall_mem_append]
    exact ⟨.symbol .leftBracket, isWritable_separated (List.forall_mem_map.mpr ih),
      List.forall_mem_singleton.mpr (.symbol .rightBracket)⟩

/-! ## Conditions -/

/-- The symbol of a comparison. -/
def Comparison.symbol : Comparison → Symbol
  | .equal => .equal
  | .strictEqual => .strictEqual
  | .notEqual => .notEqual
  | .strictNotEqual => .strictNotEqual
  | .less => .less
  | .lessOrEqual => .lessOrEqual
  | .greater => .greater
  | .greaterOrEqual => .greaterOrEqual

/-- The keyword of a word relation. -/
def WordRelation.keyword : WordRelation → Keyword
  | .isIn => .isIn
  | .contains => .contains
  | .like => .like
  | .ilike => .ilike
  | .intersects => .intersects

/-- The tokens of a relation. -/
def Relation.tokens : Relation → List Token
  | .comparison c => [.symbol c.symbol]
  | .word negated w => (if negated then [Keyword.not.token] else []) ++ [w.keyword.token]

namespace Condition

/-- The tokens of a condition by itself. -/
def tokens (condition : Condition) : List Token :=
  .identifier condition.field :: (condition.relation.tokens ++ valueTokens condition.value)

/-- The tokens of conditions behind others. -/
def tokensBehind (conditions : List Condition) : List Token :=
  conditions.flatMap fun condition =>
    (if condition.isOr then Keyword.or.token else Keyword.and.token) :: condition.tokens

/-- The tokens of the conditions of a statement. -/
def whereTokens : List Condition → List Token
  | [] => []
  | first :: later => Keyword.condition.token :: (first.tokens ++ tokensBehind later)

/-- The name and the value of the condition are read back. -/
structure IsWritable (condition : Condition) : Prop where
  field : IsName condition.field
  value : IsWritableValue condition.value

/-- The value has the shape that the grammar wants behind the relation: a list to be in or to share a
member with, and a text as a pattern. -/
def Fits (condition : Condition) : Prop :=
  match condition.relation with
  | .comparison _ => True
  | .word _ .contains => True
  | .word _ .isIn | .word _ .intersects => ∃ vs, condition.value = .list vs
  | .word _ .like | .word _ .ilike => ∃ pattern, condition.value = .str pattern

end Condition

theorem isComparison_symbol (c : Comparison) : IsComparison (.symbol c.symbol) c := by
  cases c <;> constructor

theorem isWordRelation_tokens {condition : Condition} {negated : Bool} {w : WordRelation}
    (relation : condition.relation = .word negated w) (fits : condition.Fits)
    (writable : IsWritableValue condition.value) :
    IsWordRelation (w.keyword.token :: valueTokens condition.value) w condition.value := by
  rw [Condition.Fits, relation] at fits
  cases w with
  | isIn =>
    obtain ⟨vs, value⟩ := fits
    rw [value] at writable ⊢
    exact .isIn _ (isListLiteral_of_isWritable writable)
  | intersects =>
    obtain ⟨vs, value⟩ := fits
    rw [value] at writable ⊢
    exact .intersects _ (isListLiteral_of_isWritable writable)
  | contains => exact .contains _ (isValue_valueTokens writable)
  | like =>
    obtain ⟨pattern, value⟩ := fits
    have related := IsWordRelation.like Keyword.like.word (CodeText.ofString pattern)
    rw [CodeText.text_ofString] at related
    rw [value]
    exact related
  | ilike =>
    obtain ⟨pattern, value⟩ := fits
    have related := IsWordRelation.ilike Keyword.ilike.word (CodeText.ofString pattern)
    rw [CodeText.text_ofString] at related
    rw [value]
    exact related

theorem isCondition_tokens {condition : Condition} (writable : condition.IsWritable)
    (fits : condition.Fits) : IsCondition condition.tokens (condition.joined false) := by
  refine Read.isCondition_iff.mpr ⟨rfl, [.identifier condition.field],
    condition.relation.tokens ++ valueTokens condition.value, rfl, .single _, ?_⟩
  change Read.IsRelated _ (condition.relation, condition.value)
  cases relation : condition.relation with
  | comparison c => exact .comparison (isComparison_symbol c) (isValue_valueTokens writable.value)
  | word negated w =>
    have related := isWordRelation_tokens relation fits writable.value
    cases negated with
    | false => exact .word related
    | true => exact .negated _ related

theorem isWritable_relationTokens (relation : Relation) :
    ∀ t ∈ relation.tokens, t.IsWritable := by
  cases relation with
  | comparison c => exact List.forall_mem_singleton.mpr (.symbol c.symbol)
  | word negated w =>
    rw [Relation.tokens, List.forall_mem_append]
    refine ⟨?_, List.forall_mem_singleton.mpr (.keyword w.keyword)⟩
    cases negated with
    | false => exact List.forall_mem_nil _
    | true => exact List.forall_mem_singleton.mpr (.keyword .not)

theorem isWritable_conditionTokens {condition : Condition} (writable : condition.IsWritable) :
    ∀ t ∈ condition.tokens, t.IsWritable := by
  rw [Condition.tokens, List.forall_mem_cons, List.forall_mem_append]
  exact ⟨.identifier writable.field, isWritable_relationTokens _,
    isWritable_valueTokens writable.value⟩

theorem isWritable_whereTokens {conditions : List Condition}
    (writable : ∀ c ∈ conditions, c.IsWritable) :
    ∀ t ∈ Condition.whereTokens conditions, t.IsWritable := by
  cases conditions with
  | nil => exact List.forall_mem_nil _
  | cons first later =>
    rw [List.forall_mem_cons] at writable
    rw [Condition.whereTokens, List.forall_mem_cons, List.forall_mem_append,
      Condition.tokensBehind, List.forall_mem_flatMap]
    refine ⟨.keyword .condition, isWritable_conditionTokens writable.1, fun c member => ?_⟩
    rw [List.forall_mem_cons]
    refine ⟨?_, isWritable_conditionTokens (writable.2 c member)⟩
    cases c.isOr with
    | false => exact .keyword .and
    | true => exact .keyword .or

/-- Conditions that are written behind others go on with their list. -/
theorem isConditions_append {ts : List Token} {before later : List Condition}
    (list : IsConditions ts before) (writable : ∀ c ∈ later, c.IsWritable)
    (fit : ∀ c ∈ later, c.Fits) :
    IsConditions (ts ++ Condition.tokensBehind later) (before ++ later) := by
  induction later generalizing ts before with
  | nil => rwa [Condition.tokensBehind, List.flatMap_nil, List.append_nil, List.append_nil]
  | cons c later ih =>
    rw [List.forall_mem_cons] at writable fit
    have joins : Joins (if c.isOr then Keyword.or.token else Keyword.and.token) c.isOr := by
      cases c.isOr with
      | false => exact .and _
      | true => exact .or _
    have longer := ih (list.snoc joins (isCondition_tokens writable.1 fit.1)) writable.2 fit.2
    rw [List.append_assoc, List.append_assoc] at longer
    exact longer

theorem isWhereClause_tokens {conditions : List Condition}
    (plain : ∀ c ∈ conditions.head?, c.isOr = false)
    (writable : ∀ c ∈ conditions, c.IsWritable) (fit : ∀ c ∈ conditions, c.Fits) :
    IsWhereClause (Condition.whereTokens conditions) conditions := by
  cases conditions with
  | nil => exact .empty
  | cons first later =>
    rw [List.forall_mem_cons] at writable fit
    have one := isCondition_tokens writable.1 fit.1
    rw [← plain first rfl] at one
    exact .conditions _ (isConditions_append (.single one) writable.2 fit.2)

/-- The grammar wants values of certain shapes behind words. -/
theorem fits_of_isCondition {ts : List Token} {c : Condition} (phrase : IsCondition ts c) :
    c.Fits := by
  cases phrase with
  | comparison _ _ _ => exact trivial
  | word _ related | negated _ _ related =>
    cases related with
    | isIn _ list | intersects _ list => cases list <;> exact ⟨_, rfl⟩
    | contains _ _ => exact trivial
    | like _ pattern | ilike _ pattern => exact ⟨pattern.text, rfl⟩

theorem fit_of_isConditions {ts : List Token} {cs : List Condition} (phrase : IsConditions ts cs) :
    ∀ c ∈ cs, c.Fits := by
  induction phrase with
  | single condition => exact List.forall_mem_singleton.mpr (fits_of_isCondition condition)
  | and _ _ condition ih | or _ _ condition ih =>
    have fits := fits_of_isCondition condition
    exact List.forall_mem_append.mpr ⟨ih, List.forall_mem_singleton.mpr fits⟩

theorem fit_of_isStatement {ts : List Token} {s : Statement} (phrase : IsStatement ts s) :
    ∀ c ∈ s.conditions, c.Fits := by
  cases phrase with
  | semicolon query | plain query =>
    cases query with
    | clauses _ asked _ _ _ =>
      cases asked with
      | empty => exact List.forall_mem_nil _
      | conditions _ conditions => exact fit_of_isConditions conditions

/-! ## Clauses -/

/-- The tokens that name an index. -/
def indexTokens : Option String → List Token
  | none => []
  | some name => [Keyword.usingIndex.token, .identifier name]

/-- The tokens that tell whether the boundaries of a range belong to it. -/
def rangeTokens : Option Bool → List Token
  | none => []
  | some true => [Keyword.inclusive.token]
  | some false => [Keyword.exclusive.token]

namespace Retrieval

/-- The tokens of a retrieval. -/
def tokens : Retrieval → List Token
  | .scan => []
  | .get key index? => Keyword.get.token :: (separated [valueTokens key] ++ indexTokens index?)
  | .getAll keys index? =>
    Keyword.get.token :: (separated (keys.map valueTokens) ++ indexTokens index?)
  | .between left right index? inclusive? =>
    Keyword.between.token :: (valueTokens left ++ Keyword.and.token ::
      (valueTokens right ++ (indexTokens index? ++ rangeTokens inclusive?)))

/-- The keys, the boundaries and the name of the index are read back, and a retrieval of several keys
has at least two. -/
inductive IsWritable : Retrieval → Prop where
  | scan : IsWritable .scan
  | get {key : Value} {index? : Option String} (value : IsWritableValue key)
      (index : ∀ name ∈ index?, IsName name) : IsWritable (.get key index?)
  | getAll {keys : List Value} {index? : Option String} (several : 2 ≤ keys.length)
      (values : ∀ key ∈ keys, IsWritableValue key) (index : ∀ name ∈ index?, IsName name) :
      IsWritable (.getAll keys index?)
  | between {left right : Value} {index? : Option String} {inclusive? : Option Bool}
      (first : IsWritableValue left) (last : IsWritableValue right)
      (index : ∀ name ∈ index?, IsName name) : IsWritable (.between left right index? inclusive?)

theorem ofKeys_several {keys : List Value} (several : 2 ≤ keys.length) (index? : Option String) :
    ofKeys keys index? = .getAll keys index? := by
  match keys, several with
  | _ :: _ :: _, _ => rfl

end Retrieval

theorem isUsingClause_tokens (index? : Option String) :
    IsUsingClause (indexTokens index?) index? := by
  cases index? with
  | none => exact .empty
  | some name => exact .index _ name

theorem isRangeClause_tokens (inclusive? : Option Bool) :
    IsRangeClause (rangeTokens inclusive?) inclusive? := by
  match inclusive? with
  | none => exact .empty
  | some true => exact .inclusive _
  | some false => exact .exclusive _

theorem isRetrieval_tokens {retrieval : Retrieval} (writable : retrieval.IsWritable) :
    IsRetrieval retrieval.tokens retrieval := by
  have keyed {keys : List Value} (filled : keys ≠ []) (values : ∀ key ∈ keys, IsWritableValue key)
      (index? : Option String) : IsRetrieval
        (Keyword.get.token :: (separated (keys.map valueTokens) ++ indexTokens index?))
        (.ofKeys keys index?) :=
    .get _ (isListOf_separated filled fun key member => isValue_valueTokens (values key member))
      (isUsingClause_tokens index?)
  cases writable with
  | scan => exact .scan
  | @get key index? value _ =>
    exact keyed (List.cons_ne_nil key []) (List.forall_mem_singleton.mpr value) index?
  | @getAll keys index? several values _ =>
    have filled : keys ≠ [] := List.ne_nil_of_length_pos (Nat.lt_of_lt_of_le Nat.zero_lt_two several)
    have phrase := keyed filled values index?
    rwa [Retrieval.ofKeys_several several] at phrase
  | between first last _ =>
    exact .between _ _ (isValue_valueTokens first) (isValue_valueTokens last)
      (isUsingClause_tokens _) (isRangeClause_tokens _)

theorem isWritable_indexTokens {index? : Option String} (valid : ∀ name ∈ index?, IsName name) :
    ∀ t ∈ indexTokens index?, t.IsWritable := by
  cases index? with
  | none => exact List.forall_mem_nil _
  | some name =>
    rw [indexTokens, List.forall_mem_cons, List.forall_mem_singleton]
    exact ⟨.keyword .usingIndex, .identifier (valid name rfl)⟩

theorem isWritable_rangeTokens (inclusive? : Option Bool) :
    ∀ t ∈ rangeTokens inclusive?, t.IsWritable := by
  match inclusive? with
  | none => exact List.forall_mem_nil _
  | some true => exact List.forall_mem_singleton.mpr (.keyword .inclusive)
  | some false => exact List.forall_mem_singleton.mpr (.keyword .exclusive)

theorem isWritable_retrievalTokens {retrieval : Retrieval} (writable : retrieval.IsWritable) :
    ∀ t ∈ retrieval.tokens, t.IsWritable := by
  cases writable with
  | scan => exact List.forall_mem_nil _
  | get value index =>
    rw [Retrieval.tokens, List.forall_mem_cons, List.forall_mem_append]
    exact ⟨.keyword .get,
      isWritable_separated (List.forall_mem_singleton.mpr (isWritable_valueTokens value)),
      isWritable_indexTokens index⟩
  | getAll several values index =>
    rw [Retrieval.tokens, List.forall_mem_cons, List.forall_mem_append]
    refine ⟨.keyword .get, isWritable_separated (List.forall_mem_map.mpr fun key member => ?_),
      isWritable_indexTokens index⟩
    exact isWritable_valueTokens (values key member)
  | between first last index =>
    simp only [Retrieval.tokens, List.forall_mem_cons, List.forall_mem_append]
    exact ⟨.keyword .between, isWritable_valueTokens first, .keyword .and,
      isWritable_valueTokens last, isWritable_indexTokens index, isWritable_rangeTokens _⟩

/-- The keyword of a direction. -/
def directionKeyword : Direction → Keyword
  | .ascending => .ascending
  | .descending => .descending

/-- The tokens of a sort key. -/
def sortKeyTokens (key : SortKey) : List Token :=
  [.identifier key.field, (directionKeyword key.direction).token]

/-- The tokens that tell what to sort by. -/
def sortTokens (keys : List SortKey) : List Token :=
  if keys.isEmpty then []
  else Keyword.sort.token :: Keyword.sortBy.token :: separated (keys.map sortKeyTokens)

/-- The tokens that tell how many records to skip; skipping none is the default. -/
def offsetTokens (offset : Int) : List Token :=
  if offset = 0 then [] else [Keyword.offset.token, .integer offset]

/-- The tokens that tell how many records to keep. -/
def limitTokens : Option Int → List Token
  | none => []
  | some n => [Keyword.limit.token, .integer n]

theorem isSortKey_tokens (key : SortKey) : IsSortKey (sortKeyTokens key) key := by
  obtain ⟨field, direction⟩ := key
  cases direction with
  | ascending => exact .ascending _ (.single field)
  | descending => exact .descending _ (.single field)

theorem isSortClause_tokens (keys : List SortKey) : IsSortClause (sortTokens keys) keys := by
  unfold sortTokens
  cases keys with
  | nil => exact .empty
  | cons key keys =>
    exact .keys _ _ (isListOf_separated (List.cons_ne_nil key keys) fun key _ => isSortKey_tokens key)

theorem isOffsetClause_tokens (offset : Int) : IsOffsetClause (offsetTokens offset) offset := by
  unfold offsetTokens
  split
  · rename_i none
    rw [none]
    exact .empty
  · exact .offset _ offset

theorem isLimitClause_tokens (limit : Option Int) : IsLimitClause (limitTokens limit) limit := by
  cases limit with
  | none => exact .empty
  | some n => exact .limit _ n

theorem isWritable_sortTokens {keys : List SortKey} (valid : ∀ key ∈ keys, IsName key.field) :
    ∀ t ∈ sortTokens keys, t.IsWritable := by
  unfold sortTokens
  split
  · exact List.forall_mem_nil _
  · rw [List.forall_mem_cons, List.forall_mem_cons]
    refine ⟨.keyword .sort, .keyword .sortBy, ?_⟩
    refine isWritable_separated (List.forall_mem_map.mpr fun key member => ?_)
    rw [sortKeyTokens, List.forall_mem_cons, List.forall_mem_singleton]
    exact ⟨.identifier (valid key member), .keyword _⟩

theorem isWritable_offsetTokens (offset : Int) : ∀ t ∈ offsetTokens offset, t.IsWritable := by
  unfold offsetTokens
  split
  · exact List.forall_mem_nil _
  · rw [List.forall_mem_cons, List.forall_mem_singleton]
    exact ⟨.keyword .offset, .integer offset⟩

theorem isWritable_limitTokens (limit : Option Int) : ∀ t ∈ limitTokens limit, t.IsWritable := by
  cases limit with
  | none => exact List.forall_mem_nil _
  | some n =>
    rw [limitTokens, List.forall_mem_cons, List.forall_mem_singleton]
    exact ⟨.keyword .limit, .integer n⟩

/-! ## Statements -/

namespace Statement

/-- The tokens of a statement. -/
def tokens (s : Statement) : List Token :=
  s.retrieval.tokens ++ (Condition.whereTokens s.conditions ++
    (sortTokens s.sortBy ++ (offsetTokens s.offset ++ limitTokens s.limit)))

/-- The text of a statement. -/
def written (s : Statement) : String := String.ofList (Token.line s.tokens)

example :
    let few : Condition := ⟨"a", .word true .isIn, .list [.int (-3), .str "b\"c"], false⟩
    written ⟨.get .null (some "by"), [few], [⟨"d", .descending⟩], 0, some 2⟩ =
      "get null using \x60by\x60 where \x60a\x60 not in [ -3 , \"b\\\"c\" ] sort by \x60d\x60 desc limit 2" := by
  cbv

/-- A statement that can be written: names that can stand between marks, values whose texts are read
back, a first condition that is joined to none, and conditions that keep the rules. -/
structure IsWritable (s : Statement) : Prop where
  retrieval : s.retrieval.IsWritable
  conditions : ∀ c ∈ s.conditions, c.IsWritable
  plainFirst : ∀ c ∈ s.conditions.head?, c.isOr = false
  checked : Condition.check s.conditions = .ok ()
  sortBy : ∀ key ∈ s.sortBy, IsName key.field

theorem isStatement_tokens {s : Statement} (writable : s.IsWritable)
    (fit : ∀ c ∈ s.conditions, c.Fits) : IsStatement s.tokens s :=
  .plain (.clauses (isRetrieval_tokens writable.retrieval)
    (isWhereClause_tokens writable.plainFirst writable.conditions fit) (isSortClause_tokens s.sortBy)
    (isOffsetClause_tokens s.offset) (isLimitClause_tokens s.limit))

theorem isWritable_tokens {s : Statement} (writable : s.IsWritable) :
    ∀ t ∈ s.tokens, t.IsWritable := by
  simp only [tokens, List.forall_mem_append]
  exact ⟨isWritable_retrievalTokens writable.retrieval, isWritable_whereTokens writable.conditions,
    isWritable_sortTokens writable.sortBy, isWritable_offsetTokens _, isWritable_limitTokens _⟩

/-- What a text spells is what its tokens spell. -/
theorem isStatement_of_ofText [CharacterNames] {text : String} {placed : List PlacedToken}
    {failure? : Option StatementError} {s : Statement}
    (read : Tokenization.ofText text = ⟨placed, failure?⟩) (told : ofText text = .ok s) :
    IsStatement (placed.map (·.token)) s := by
  obtain ⟨ts, tokenized, phrase, checked⟩ := ofText_eq_ok.mp told
  obtain ⟨placed', same, rfl⟩ := tokenization_of_isTokenized tokenized
  cases read.symm.trans same
  exact phrase

theorem fit_of_ofText_written [CharacterNames] {s : Statement} (writable : s.IsWritable)
    (told : ofText s.written = .ok s) : ∀ c ∈ s.conditions, c.Fits := by
  obtain ⟨placed, read, _⟩ := Tokenization.ofText_line (isWritable_tokens writable)
  exact fit_of_isStatement (isStatement_of_ofText read told)

/-- **Reading undoes writing.** The text of a statement is read back as that statement, if and only if
its conditions fit the grammar: what a field is `in` or what it `intersects` is a list, and what it is
`like` is a text. -/
theorem ofText_written_iff [CharacterNames] {s : Statement} (writable : s.IsWritable) :
    ofText s.written = .ok s ↔ ∀ c ∈ s.conditions, c.Fits := by
  refine ⟨fit_of_ofText_written writable, fun fit => ?_⟩
  obtain ⟨placed, read, placed_eq⟩ := Tokenization.ofText_line (isWritable_tokens writable)
  have phrase := isStatement_tokens writable fit
  rw [← placed_eq] at phrase
  rw [written, ofText_of_phrase read phrase, writable.checked]
  rfl

open scoped CharacterNames

theorem ofText_written_of_range :
    let first : Value := .list [.int (-3), .str "\"\\\n∞"]
    let member : Condition := ⟨"and", .word false .isIn, .list [.bool true, .list []], false⟩
    let pattern : Condition := ⟨"ä.b", .word true .like, .str "%", true⟩
    let s : Statement := ⟨.between first .null (some "by index") (some true), [member, pattern],
      [⟨"c", .descending⟩, ⟨"d", .ascending⟩], -1, some 2⟩
    s.IsWritable ∧ ofText s.written = .ok s := by
  intro first member pattern s
  have texts : IsWritableValue first :=
    .list (List.forall_mem_cons.mpr ⟨.integer (-3), List.forall_mem_singleton.mpr (.string _)⟩)
  have items : IsWritableValue member.value := .list
    (List.forall_mem_cons.mpr ⟨.bool true, List.forall_mem_singleton.mpr (.list (List.forall_mem_nil _))⟩)
  have writable : s.IsWritable := {
    retrieval := .between texts .null (by decide)
    conditions := List.forall_mem_cons.mpr
      ⟨⟨by decide, items⟩, List.forall_mem_singleton.mpr ⟨by decide, .string "%"⟩⟩
    plainFirst := by
      rintro c ⟨⟩
      rfl
    checked := rfl
    sortBy := by decide }
  refine ⟨writable, (ofText_written_iff writable).mpr ?_⟩
  exact List.forall_mem_cons.mpr ⟨⟨_, rfl⟩, List.forall_mem_singleton.mpr ⟨_, rfl⟩⟩

/-- A field cannot be `in` a number. -/
theorem ofText_written_ne_of_number :
    let s : Statement := ⟨.scan, [⟨"a", .word false .isIn, .int 5, false⟩], [], 0, none⟩
    s.IsWritable ∧ s.written = "where \x60a\x60 in 5" ∧ ofText s.written ≠ .ok s := by
  intro s
  have writable : s.IsWritable := {
    retrieval := .scan
    conditions := List.forall_mem_singleton.mpr ⟨by decide, .integer 5⟩
    plainFirst := by
      rintro c ⟨⟩
      rfl
    checked := rfl
    sortBy := List.forall_mem_nil _ }
  refine ⟨writable, by cbv, fun told => ?_⟩
  obtain ⟨vs, list⟩ := fit_of_ofText_written writable told _ List.mem_cons_self
  cases list

end Statement

end RecordQuery.Itq
