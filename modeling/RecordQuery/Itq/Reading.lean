import RecordQuery.Itq.Statement

/-!
# Reading statements

Tokens are read by descent along the grammar, which needs one token of foresight. A failure tells
the tokens that are left, the first of which cannot stand where it is; if none is left, more tokens
are needed. A text fails at its first problem, be it one of characters, of escapes or of grammar;
only a statement that is complete is held against the rules for its conditions.
-/

namespace RecordQuery.Itq

/-- Reading from tokens gives what was read and the tokens after it, or the tokens from the first one
that cannot stand. -/
abbrev Reader (α : Type) := List Token → Except (List Token) (α × List Token)

/-! ## What single tokens mean -/

namespace Token

/-- The value of a token that is a literal by itself. -/
def literal? : Token → Option Value
  | .integer n => some (.int n)
  | .float x => some (.float x)
  | .string s => some (.str s.text)
  | .keyword .true _ => some (.bool true)
  | .keyword .false _ => some (.bool false)
  | .keyword .null _ => some .null
  | _ => none

/-- The comparison that a token stands for. -/
def comparison? : Token → Option Comparison
  | .symbol .assign => some .equal
  | .symbol .equal => some .equal
  | .symbol .strictEqual => some .strictEqual
  | .symbol .notEqual => some .notEqual
  | .symbol .strictNotEqual => some .strictNotEqual
  | .symbol .less => some .less
  | .symbol .lessOrEqual => some .lessOrEqual
  | .symbol .greater => some .greater
  | .symbol .greaterOrEqual => some .greaterOrEqual
  | _ => none

/-- The word relation that a token stands for. -/
def wordRelation? : Token → Option WordRelation
  | .keyword .isIn _ => some .isIn
  | .keyword .contains _ => some .contains
  | .keyword .like _ => some .like
  | .keyword .ilike _ => some .ilike
  | .keyword .intersects _ => some .intersects
  | _ => none

end Token

namespace Read

/-! ## Single tokens -/

/-- Reads a given symbol. -/
def symbol (s : Symbol) : Reader Unit
  | .symbol t :: ts => if t = s then .ok ((), ts) else .error (.symbol t :: ts)
  | ts => .error ts

/-- Reads a given keyword. -/
def keyword (k : Keyword) : Reader Unit
  | .keyword l word :: ts => if l = k then .ok ((), ts) else .error (.keyword l word :: ts)
  | ts => .error ts

/-- Reads a name. -/
def identifier : Reader String
  | .identifier name :: ts => .ok (name, ts)
  | ts => .error ts

/-- Reads a whole number. -/
def integer : Reader Int
  | .integer n :: ts => .ok (n, ts)
  | ts => .error ts

/-- Reads a string literal as a value. -/
def string : Reader Value
  | .string s :: ts => .ok (.str s.text, ts)
  | ts => .error ts

/-! ## Values -/

mutual
/-- Reads a value: a literal, or values in brackets; `fuel` bounds the nesting and the length. -/
def valueWithin : Nat → Reader Value
  | 0, ts => .error ts
  | _ + 1, [] => .error []
  | fuel + 1, t :: ts =>
    match t.literal? with
    | some v => .ok (v, ts)
    | none => match t, ts with
      | .symbol .leftBracket, .symbol .rightBracket :: rest => .ok (.list [], rest)
      | .symbol .leftBracket, ts => do
        let (items, rest) ← valuesWithin fuel ts
        let ((), rest) ← symbol .rightBracket rest
        return (.list items, rest)
      | t, ts => .error (t :: ts)

/-- Reads one or more values with commas between them; `fuel` bounds the nesting and the length. -/
def valuesWithin : Nat → Reader (List Value)
  | 0, ts => .error ts
  | fuel + 1, ts => do
    let (v, rest) ← valueWithin fuel ts
    match rest with
    | .symbol .comma :: rest => do
      let (vs, rest) ← valuesWithin fuel rest
      return (v :: vs, rest)
    | rest => return ([v], rest)
end

/-- Fuel that no list of tokens exhausts: every value takes two calls and at least one token. -/
def fuelFor (ts : List Token) : Nat := 2 * ts.length + 2

/-- Reads a value. -/
def value : Reader Value := fun ts => valueWithin (fuelFor ts) ts

/-- Reads one or more values with commas between them. -/
def values : Reader (List Value) := fun ts => valuesWithin (fuelFor ts) ts

/-- Reads a list in brackets. -/
def listLiteral : Reader Value
  | .symbol .leftBracket :: ts => value (.symbol .leftBracket :: ts)
  | ts => .error ts

/-! ## Conditions -/

/-- Reads the further segments of a field path after its beginning. -/
def pathAfter (path : String) : Reader String
  | .symbol .dot :: .identifier name :: ts => pathAfter (path ++ "." ++ name) ts
  | .symbol .dot :: ts => .error ts
  | ts => .ok (path, ts)

/-- Reads a field path: names with dots between them. -/
def path : Reader String := fun ts => do
  let (name, rest) ← identifier ts
  pathAfter name rest

/-- Reads what a word relation relates the field to. -/
def operand (relation : WordRelation) : Reader Value := fun ts =>
  match relation with
  | .isIn | .intersects => listLiteral ts
  | .contains => value ts
  | .like | .ilike => string ts

/-- Reads a word relation and its operand. -/
def wordRelation (negated : Bool) : Reader (Relation × Value)
  | [] => .error []
  | t :: ts => match t.wordRelation? with
    | some w => do
      let (v, rest) ← operand w ts
      return ((.word negated w, v), rest)
    | none => .error (t :: ts)

/-- Reads how a field is related to a value, and the value. -/
def relation : Reader (Relation × Value)
  | [] => .error []
  | .keyword .not _ :: ts => wordRelation true ts
  | t :: ts => match t.comparison? with
    | some c => do
      let (v, rest) ← value ts
      return ((.comparison c, v), rest)
    | none => wordRelation false (t :: ts)

/-- Reads a condition. -/
def condition (isOr : Bool) : Reader Condition := fun ts => do
  let (field, rest) ← path ts
  let ((relation, value), rest) ← relation rest
  return ({ field, relation, value, isOr }, rest)

/-- Reads one or more conditions joined by `and` and `or`; `fuel` bounds their number. -/
def conditionsWithin : Nat → Bool → Reader (List Condition)
  | 0, _, ts => .error ts
  | fuel + 1, isOr, ts => do
    let (first, rest) ← condition isOr ts
    match rest with
    | .keyword .and _ :: rest => do
      let (more, rest) ← conditionsWithin fuel false rest
      return (first :: more, rest)
    | .keyword .or _ :: rest => do
      let (more, rest) ← conditionsWithin fuel true rest
      return (first :: more, rest)
    | rest => return ([first], rest)

/-- Reads the conditions of a statement, if there are any. -/
def conditions : Reader (List Condition)
  | .keyword .condition _ :: ts => conditionsWithin (ts.length + 1) false ts
  | ts => .ok ([], ts)

/-! ## Clauses -/

/-- Reads a field to sort by and its direction, which is ascending unless told. -/
def sortKey : Reader SortKey := fun ts => do
  let (field, rest) ← path ts
  match rest with
  | .keyword .ascending _ :: rest => return (⟨field, .ascending⟩, rest)
  | .keyword .descending _ :: rest => return (⟨field, .descending⟩, rest)
  | rest => return (⟨field, .ascending⟩, rest)

/-- Reads one or more sort keys with commas between them; `fuel` bounds their number. -/
def sortKeysWithin : Nat → Reader (List SortKey)
  | 0, ts => .error ts
  | fuel + 1, ts => do
    let (key, rest) ← sortKey ts
    match rest with
    | .symbol .comma :: rest => do
      let (keys, rest) ← sortKeysWithin fuel rest
      return (key :: keys, rest)
    | rest => return ([key], rest)

/-- Reads what to sort by, if the statement tells. -/
def sortBy : Reader (List SortKey)
  | .keyword .sort _ :: ts => do
    let ((), rest) ← keyword .sortBy ts
    sortKeysWithin (rest.length + 1) rest
  | ts => .ok ([], ts)

/-- Reads how many records to skip; none unless told. -/
def offset : Reader Int
  | .keyword .offset _ :: ts => integer ts
  | ts => .ok (0, ts)

/-- Reads how many records to keep, if the statement tells. -/
def limit : Reader (Option Int)
  | .keyword .limit _ :: ts => do
    let (n, rest) ← integer ts
    return (some n, rest)
  | ts => .ok (none, ts)

/-- Reads the index to use, if the statement tells. -/
def usingIndex : Reader (Option String)
  | .keyword .usingIndex _ :: ts => do
    let (name, rest) ← identifier ts
    return (some name, rest)
  | ts => .ok (none, ts)

/-- Reads whether the boundaries of a range belong to it, if the statement tells. -/
def bounds : Reader (Option Bool)
  | .keyword .inclusive _ :: ts => .ok (some true, ts)
  | .keyword .exclusive _ :: ts => .ok (some false, ts)
  | ts => .ok (none, ts)

/-- Reads how to retrieve records; all of them unless told. -/
def retrieval : Reader Retrieval
  | .keyword .get _ :: ts => do
    let (keys, rest) ← values ts
    let (index?, rest) ← usingIndex rest
    return (.ofKeys keys index?, rest)
  | .keyword .between _ :: ts => do
    let (left, rest) ← value ts
    let ((), rest) ← keyword .and rest
    let (right, rest) ← value rest
    let (index?, rest) ← usingIndex rest
    let (inclusive?, rest) ← bounds rest
    return (.between left right index? inclusive?, rest)
  | ts => .ok (.scan, ts)

/-- Reads a statement up to an optional semicolon. -/
def statement : Reader Statement := fun ts => do
  let (retrieval, rest) ← retrieval ts
  let (conditions, rest) ← conditions rest
  let (sortBy, rest) ← sortBy rest
  let (offset, rest) ← offset rest
  let (limit, rest) ← limit rest
  let rest := match rest with
    | .symbol .semicolon :: rest => rest
    | rest => rest
  return ({ retrieval, conditions, sortBy, offset, limit }, rest)

end Read

/-! ## Texts -/

namespace Statement

/-- The statement that tokens spell, or the tokens from the first one that cannot stand. -/
def ofTokens (ts : List Token) : Except (List Token) Statement :=
  match Read.statement ts with
  | .ok (statement, []) => .ok statement
  | .ok (_, rest) => .error rest
  | .error rest => .error rest

/-- The error of tokens that are no statement, given how many of them are left from the first one
that cannot stand: if none is left, a failure to read further tokens is the error. -/
def blame (tokenization : Tokenization) (left : Nat) : StatementError :=
  match tokenization.tokens.drop (tokenization.tokens.length - left) with
  | placed :: _ => .unexpectedToken placed.token placed.position
  | [] => tokenization.failure?.getD .unexpectedEnd

/-- The statement that a text spells. -/
def ofText [CharacterNames] (text : String) : Except StatementError Statement :=
  let tokenization := Tokenization.ofText text
  match ofTokens (tokenization.tokens.map (·.token)) with
  | .error rest => .error (blame tokenization rest.length)
  | .ok statement =>
    match tokenization.failure? with
    | some e => .error e
    | none => (Condition.check statement.conditions).map fun _ => statement

end Statement

end RecordQuery.Itq
