import RecordQuery.Proofs.Itq.Reading.Statements

/-!
# One token of foresight

What a reader does depends on no token behind the first one that it leaves: with other tokens there,
it reads the same, or is stopped at the same place (`IsLocal`). Readers in sequence keep this, and so
does a reader that looks at the first token and either takes it or leaves it to another one. The fuel
of a reader counts all tokens, but more fuel than needed changes nothing.
-/

namespace RecordQuery.Itq

open Read

variable {α β : Type}

/-- The outcome of reading, given what was read, if anything was, and the tokens left. -/
def outcome : Option α → List Token → Except (List Token) (α × List Token)
  | some a, left => .ok (a, left)
  | none, left => .error left

theorem exists_outcome (result : Except (List Token) (α × List Token)) :
    ∃ a? left, result = outcome a? left := by
  cases result with
  | ok read => exact ⟨some read.1, read.2, rfl⟩
  | error left => exact ⟨none, left, rfl⟩

theorem outcome_inj {a? b? : Option α} {left other : List Token} :
    outcome a? left = outcome b? other ↔ a? = b? ∧ left = other := by
  cases a? <;> cases b? <;> simp [outcome]

/-- The reader leaves tokens of those that it is given, and tokens behind the first one that it
leaves do not matter. -/
structure IsLocal (reader : Reader α) : Prop where
  suffix : ∀ {ts left : List Token} {a? : Option α}, reader ts = outcome a? left → left <:+ ts
  foresight : ∀ {before middle after : List Token} {t : Token} {a? : Option α},
    reader (before ++ t :: after) = outcome a? (middle ++ t :: after) →
      ∀ others, reader (before ++ t :: others) = outcome a? (middle ++ t :: others)

/-! ## Readers put together -/

theorem isLocal_outcome (a? : Option α) : IsLocal (outcome a?) where
  suffix := by
    intro ts left b? read
    obtain ⟨-, rfl⟩ := outcome_inj.mp read
    exact List.suffix_refl ts
  foresight := by
    intro before middle after t b? read others
    obtain ⟨rfl, same⟩ := outcome_inj.mp read
    rw [List.append_cancel_right same]

/-- A reader after another. -/
theorem IsLocal.bind {first : Reader α} {next : α → Reader β} (isLocal : IsLocal first)
    (each : ∀ a, IsLocal (next a)) :
    IsLocal fun ts => first ts >>= fun read => next read.1 read.2 where
  suffix := by
    intro ts left b? read
    obtain ⟨a?, between, begun⟩ := exists_outcome (first ts)
    rw [begun] at read
    cases a? with
    | none =>
      obtain ⟨-, rfl⟩ := outcome_inj.mp (show outcome none between = outcome b? left from read)
      exact isLocal.suffix begun
    | some a => exact ((each a).suffix read).trans (isLocal.suffix begun)
  foresight := by
    intro before middle after t b? read others
    obtain ⟨a?, between, begun⟩ := exists_outcome (first (before ++ t :: after))
    rw [begun] at read
    cases a? with
    | none =>
      obtain ⟨rfl, rfl⟩ := outcome_inj.mp (show outcome none between = outcome b? _ from read)
      rw [isLocal.foresight begun others]
      rfl
    | some a =>
      -- The second reader leaves a part of what the first one does.
      obtain ⟨used, rfl⟩ := (each a).suffix read
      rw [← List.append_assoc] at begun read
      rw [isLocal.foresight begun others]
      exact (each a).foresight read others

/-- A reader that begins with a token either takes it or leaves it to another reader. -/
inductive IsLocalAt (reader : Reader α) (t : Token) : Prop where
  | take {inner : Reader α} (isLocal : IsLocal inner) (same : ∀ ts, reader (t :: ts) = inner ts)
  | leave {other : Reader α} (isLocal : IsLocal other)
      (same : ∀ ts, reader (t :: ts) = other (t :: ts))

theorem IsLocal.of_front {reader other : Reader α} (isLocal : IsLocal other)
    (atEnd : reader [] = other []) (front : ∀ t, IsLocalAt reader t) : IsLocal reader where
  suffix := by
    intro ts left a? read
    cases ts with
    | nil =>
      rw [atEnd] at read
      exact isLocal.suffix read
    | cons t ts =>
      cases front t with
      | take isLocal same =>
        rw [same] at read
        exact (isLocal.suffix read).trans (List.suffix_cons t ts)
      | leave isLocal same =>
        rw [same] at read
        exact isLocal.suffix read
  foresight := by
    intro before middle after t a? read others
    cases before with
    | nil =>
      cases front t with
      | take isLocal same =>
        -- A token that is taken is not left.
        rw [List.nil_append, same] at read
        have short := (isLocal.suffix read).length_le
        simp only [List.length_append, List.length_cons] at short
        omega
      | leave isLocal same =>
        rw [List.nil_append, same] at read ⊢
        exact @IsLocal.foresight _ _ isLocal [] _ _ _ _ read others
    | cons first before =>
      cases front first with
      | take isLocal same =>
        rw [List.cons_append, same] at read ⊢
        exact isLocal.foresight read others
      | leave isLocal same =>
        rw [List.cons_append, same] at read ⊢
        exact @IsLocal.foresight _ _ isLocal (first :: before) _ _ _ _ read others

/-- A reader with as much fuel as the tokens need. -/
theorem IsLocal.of_fuel {within : Nat → Reader α} {fuelFor : List Token → Nat}
    (isLocal : ∀ fuel, IsLocal (within fuel))
    (enough : ∀ {ts fuel}, fuelFor ts ≤ fuel → within fuel ts = within (fuelFor ts) ts) :
    IsLocal fun ts => within (fuelFor ts) ts where
  suffix := fun read => (isLocal _).suffix read
  foresight := by
    intro before middle after t a? read others
    rw [← enough (Nat.le_max_left _ (fuelFor (before ++ t :: others)))] at read
    rw [← enough (Nat.le_max_right (fuelFor (before ++ t :: after)) _)]
    exact (isLocal _).foresight read others

namespace Read

theorem isLocal_pure (a : α) : IsLocal fun ts => .ok (a, ts) := isLocal_outcome (some a)

theorem isLocal_refuse : IsLocal fun ts => (.error ts : Except (List Token) (α × List Token)) :=
  isLocal_outcome none

/-! ## Single tokens -/

/-- The reader takes the first token, or refuses it. -/
structure ReadsOne (reader : Reader α) : Prop where
  atEnd : reader [] = .error []
  front : ∀ t, (∃ a, ∀ ts, reader (t :: ts) = .ok (a, ts)) ∨
    ∀ ts, reader (t :: ts) = .error (t :: ts)

theorem ReadsOne.isLocal {reader : Reader α} (one : ReadsOne reader) : IsLocal reader := by
  refine .of_front isLocal_refuse one.atEnd fun t => ?_
  rcases one.front t with ⟨a, taken⟩ | refused
  · exact .take (isLocal_pure a) taken
  · exact .leave isLocal_refuse refused

theorem readsOne_symbol (s : Symbol) : ReadsOne (symbol s) := by
  refine ⟨rfl, fun t => ?_⟩
  cases t with
  | symbol other =>
    by_cases same : other = s
    · exact .inl ⟨(), fun _ => if_pos same⟩
    · exact .inr fun _ => if_neg same
  | _ => exact .inr fun _ => rfl

theorem readsOne_keyword (k : Keyword) : ReadsOne (keyword k) := by
  refine ⟨rfl, fun t => ?_⟩
  cases t with
  | keyword other word =>
    by_cases same : other = k
    · exact .inl ⟨(), fun _ => if_pos same⟩
    · exact .inr fun _ => if_neg same
  | _ => exact .inr fun _ => rfl

theorem readsOne_identifier : ReadsOne identifier := by
  refine ⟨rfl, fun t => ?_⟩
  cases t with
  | identifier name => exact .inl ⟨name, fun _ => rfl⟩
  | _ => exact .inr fun _ => rfl

theorem readsOne_integer : ReadsOne integer := by
  refine ⟨rfl, fun t => ?_⟩
  cases t with
  | integer n => exact .inl ⟨n, fun _ => rfl⟩
  | _ => exact .inr fun _ => rfl

theorem readsOne_string : ReadsOne string := by
  refine ⟨rfl, fun t => ?_⟩
  cases t with
  | string s => exact .inl ⟨.str s.text, fun _ => rfl⟩
  | _ => exact .inr fun _ => rfl

/-! ## Values -/

theorem valueWithin_zero : valueWithin 0 = fun ts => .error ts := by
  funext ts
  rw [valueWithin]

theorem valuesWithin_zero : valuesWithin 0 = fun ts => .error ts := by
  funext ts
  rw [valuesWithin]

/-- Values up to a right bracket. -/
def toBracket (fuel : Nat) : Reader Value := fun ts => do
  let (items, rest) ← valuesWithin fuel ts
  let ((), rest) ← symbol .rightBracket rest
  return (.list items, rest)

/-- What follows a left bracket: a right one, or values up to a right one. -/
def afterBracket (fuel : Nat) : Reader Value
  | .symbol .rightBracket :: rest => .ok (.list [], rest)
  | ts => toBracket fuel ts

theorem valueWithin_leftBracket (fuel : Nat) (ts : List Token) :
    valueWithin (fuel + 1) (.symbol .leftBracket :: ts) = afterBracket fuel ts := by
  unfold afterBracket
  split
  · rfl
  · rename_i open_
    refine valueWithin_brackets fun mark member front => ?_
    rw [List.mem_singleton.mp member] at front
    unfold Mark.front? at front
    split at front
    · cases front
      exact open_ _ rfl
    · cases front
    · cases front

theorem isLocal_afterBracket {fuel : Nat} (inner : IsLocal (valuesWithin fuel)) :
    IsLocal (afterBracket fuel) := by
  have filled : IsLocal (toBracket fuel) :=
    inner.bind fun items => (readsOne_symbol .rightBracket).isLocal.bind fun _ =>
      isLocal_pure (Value.list items)
  refine .of_front filled rfl fun t => ?_
  cases t with
  | symbol s =>
    cases s with
    | rightBracket => exact .take (isLocal_pure _) fun _ => rfl
    | _ => exact .leave filled fun _ => rfl
  | _ => exact .leave filled fun _ => rfl

theorem valueWithin_refuse {fuel : Nat} {t : Token} (literal : t.literal? = none)
    (other : t ≠ .symbol .leftBracket) (ts : List Token) :
    valueWithin (fuel + 1) (t :: ts) = .error (t :: ts) := by
  unfold valueWithin
  rw [literal]
  dsimp only
  split
  · exact absurd rfl other
  · exact absurd rfl other
  · rfl

theorem isLocal_valueWithin_succ {fuel : Nat} (inner : IsLocal (valuesWithin fuel)) :
    IsLocal (valueWithin (fuel + 1)) := by
  refine .of_front isLocal_refuse rfl fun t => ?_
  cases literal : t.literal? with
  | some v => exact .take (isLocal_pure v) (valueWithin_literal literal)
  | none =>
    by_cases bracket : t = .symbol .leftBracket
    · rw [bracket]
      exact .take (isLocal_afterBracket inner) (valueWithin_leftBracket fuel)
    · exact .leave isLocal_refuse (valueWithin_refuse literal bracket)

/-- What follows a value among values: a comma and further values, or nothing. -/
def afterValue (fuel : Nat) (v : Value) : Reader (List Value)
  | .symbol .comma :: rest => do
    let (vs, rest) ← valuesWithin fuel rest
    return (v :: vs, rest)
  | rest => return ([v], rest)

theorem valuesWithin_succ (fuel : Nat) : valuesWithin (fuel + 1) = fun ts =>
    valueWithin fuel ts >>= fun read => afterValue fuel read.1 read.2 := by
  funext ts
  rw [valuesWithin]
  rfl

theorem isLocal_afterValue {fuel : Nat} (inner : IsLocal (valuesWithin fuel)) (v : Value) :
    IsLocal (afterValue fuel v) := by
  refine .of_front (isLocal_pure [v]) rfl fun t => ?_
  cases t with
  | symbol s =>
    cases s with
    | comma => exact .take (inner.bind fun vs => isLocal_pure (v :: vs)) fun _ => rfl
    | _ => exact .leave (isLocal_pure [v]) fun _ => rfl
  | _ => exact .leave (isLocal_pure [v]) fun _ => rfl

theorem isLocal_within (fuel : Nat) :
    IsLocal (valueWithin fuel) ∧ IsLocal (valuesWithin fuel) := by
  induction fuel with
  | zero =>
    rw [valueWithin_zero, valuesWithin_zero]
    exact ⟨isLocal_refuse, isLocal_refuse⟩
  | succ fuel ih =>
    refine ⟨isLocal_valueWithin_succ ih.2, ?_⟩
    rw [valuesWithin_succ]
    exact ih.1.bind (isLocal_afterValue ih.2)

/-- With enough fuel for the tokens, how much there is does not matter. -/
theorem within_eq_of_enough (fuel : Nat) :
    (∀ {ts : List Token} {other : Nat}, 2 * ts.length < fuel → 2 * ts.length < other →
        valueWithin fuel ts = valueWithin other ts) ∧
      ∀ {ts : List Token} {other : Nat}, 2 * ts.length + 1 < fuel → 2 * ts.length + 1 < other →
        valuesWithin fuel ts = valuesWithin other ts := by
  induction fuel with
  | zero => exact ⟨fun none => absurd none (Nat.not_lt_zero _),
      fun none => absurd none (Nat.not_lt_zero _)⟩
  | succ fuel ih =>
    constructor
    · intro ts other enough enough'
      obtain _ | other := other
      · omega
      cases ts with
      | nil => rfl
      | cons t ts =>
        rw [List.length_cons] at enough enough'
        cases literal : t.literal? with
        | some v => rw [valueWithin_literal literal, valueWithin_literal literal]
        | none =>
          by_cases bracket : t = .symbol .leftBracket
          · rw [bracket, valueWithin_leftBracket, valueWithin_leftBracket]
            have agree : valuesWithin fuel ts = valuesWithin other ts :=
              ih.2 (by omega) (by omega)
            unfold afterBracket
            split
            · rfl
            · rw [toBracket, toBracket, agree]
          · rw [valueWithin_refuse literal bracket, valueWithin_refuse literal bracket]
    · intro ts other enough enough'
      obtain _ | other := other
      · omega
      rw [valuesWithin_succ, valuesWithin_succ]
      dsimp only
      rw [ih.1 (by omega) (by omega : 2 * ts.length < other)]
      obtain ⟨v?, rest, read⟩ := exists_outcome (valueWithin other ts)
      rw [read]
      have short := ((isLocal_within other).1.suffix read).length_le
      cases v? with
      | none => rfl
      | some v =>
        change afterValue fuel v rest = afterValue other v rest
        unfold afterValue
        split
        · rename_i rest
          rw [List.length_cons] at short
          rw [ih.2 (by omega) (by omega : 2 * rest.length + 1 < other)]
        · rfl

theorem isLocal_value : IsLocal value :=
  .of_fuel (fun fuel => (isLocal_within fuel).1) fun enough =>
    (within_eq_of_enough _).1 (by unfold fuelFor at enough; omega) (by unfold fuelFor; omega)

theorem isLocal_values : IsLocal values :=
  .of_fuel (fun fuel => (isLocal_within fuel).2) fun enough =>
    (within_eq_of_enough _).2 (by unfold fuelFor at enough; omega) (by unfold fuelFor; omega)

theorem isLocal_listLiteral : IsLocal listLiteral := by
  refine .of_front isLocal_refuse rfl fun t => ?_
  cases t with
  | symbol s =>
    cases s with
    | leftBracket => exact .leave isLocal_value fun _ => rfl
    | _ => exact .leave isLocal_refuse fun _ => rfl
  | _ => exact .leave isLocal_refuse fun _ => rfl

/-! ## Conditions -/

/-- Reads the further segments of a field path, of which `fuel` bounds the number. -/
def pathWithin : Nat → String → Reader String
  | fuel + 1, path, .symbol .dot :: ts =>
    identifier ts >>= fun read => pathWithin fuel (path ++ "." ++ read.1) read.2
  | _, path, ts => .ok (path, ts)

theorem pathWithin_eq_of_enough {ts : List Token} {fuel : Nat} (enough : ts.length ≤ fuel)
    (field : String) : pathWithin fuel field ts = pathAfter field ts := by
  fun_induction pathAfter field ts generalizing fuel with
  | case1 field name ts ih =>
    rw [List.length_cons, List.length_cons] at enough
    obtain _ | fuel := fuel
    · exact absurd enough (Nat.not_succ_le_zero _)
    exact ih (by omega)
  | case2 field ts other =>
    obtain _ | fuel := fuel
    · exact absurd enough (Nat.not_succ_le_zero _)
    cases ts with
    | nil => rfl
    | cons t ts =>
      cases t with
      | identifier name => exact absurd rfl (other name ts)
      | _ => rfl
  | case3 field ts ended dotless =>
    unfold pathWithin
    split
    · exact absurd rfl (dotless _)
    · rfl

theorem isLocal_pathWithin (fuel : Nat) (field : String) : IsLocal (pathWithin fuel field) := by
  induction fuel generalizing field with
  | zero => exact isLocal_pure field
  | succ fuel ih =>
    refine .of_front (isLocal_pure field) rfl fun t => ?_
    cases t with
    | symbol s =>
      cases s with
      | dot =>
        exact .take (readsOne_identifier.isLocal.bind fun name => ih (field ++ "." ++ name)) fun _ => rfl
      | _ => exact .leave (isLocal_pure field) fun _ => rfl
    | _ => exact .leave (isLocal_pure field) fun _ => rfl

theorem isLocal_pathAfter (field : String) : IsLocal (pathAfter field) := by
  have bounded : IsLocal fun ts => pathWithin ts.length field ts :=
    .of_fuel (fun fuel => isLocal_pathWithin fuel field) fun enough =>
      (pathWithin_eq_of_enough enough field).trans (pathWithin_eq_of_enough (Nat.le_refl _) field).symm
  have same : (fun ts => pathWithin ts.length field ts) = pathAfter field :=
    funext fun ts => pathWithin_eq_of_enough (Nat.le_refl _) field
  rwa [same] at bounded

theorem isLocal_path : IsLocal path := readsOne_identifier.isLocal.bind isLocal_pathAfter

theorem isLocal_operand (relation : WordRelation) : IsLocal (operand relation) := by
  cases relation with
  | isIn => exact isLocal_listLiteral
  | intersects => exact isLocal_listLiteral
  | contains => exact isLocal_value
  | like => exact readsOne_string.isLocal
  | ilike => exact readsOne_string.isLocal

theorem isLocal_wordRelation (negated : Bool) : IsLocal (wordRelation negated) := by
  refine .of_front isLocal_refuse rfl fun t => ?_
  cases told : t.wordRelation? with
  | some w =>
    refine .take ((isLocal_operand w).bind fun v => isLocal_pure (.word negated w, v)) fun ts => ?_
    rw [wordRelation, told]
    rfl
  | none =>
    refine .leave isLocal_refuse fun ts => ?_
    rw [wordRelation, told]

theorem relation_of_comparison? {t : Token} {c : Comparison} (told : t.comparison? = some c)
    (ts : List Token) : relation (t :: ts) =
      value ts >>= fun read => .ok ((.comparison c, read.1), read.2) := by
  cases t with
  | symbol s =>
    unfold relation
    dsimp only
    rw [told]
    rfl
  | _ => cases told

theorem relation_of_symbol {s : Symbol} (told : (Token.symbol s).comparison? = none)
    (ts : List Token) : relation (.symbol s :: ts) = wordRelation false (.symbol s :: ts) := by
  unfold relation
  dsimp only
  rw [told]

theorem isLocal_relation : IsLocal relation := by
  refine .of_front isLocal_refuse rfl fun t => ?_
  cases told : t.comparison? with
  | some c =>
    exact .take (isLocal_value.bind fun v => isLocal_pure (.comparison c, v))
      (relation_of_comparison? told)
  | none =>
    cases t with
    | keyword k word =>
      cases k with
      | not => exact .take (isLocal_wordRelation true) fun _ => rfl
      | _ => exact .leave (isLocal_wordRelation false) fun _ => rfl
    | symbol s => exact .leave (isLocal_wordRelation false) (relation_of_symbol told)
    | _ => exact .leave (isLocal_wordRelation false) fun _ => rfl

theorem isLocal_condition (isOr : Bool) : IsLocal (condition isOr) :=
  isLocal_path.bind fun field => isLocal_relation.bind fun related =>
    isLocal_pure (Condition.mk field related.1 related.2 isOr)

/-- What follows a condition: a joining word and further conditions, or nothing. -/
def afterCondition (fuel : Nat) (first : Condition) : Reader (List Condition)
  | .keyword .and _ :: rest => do
    let (more, rest) ← conditionsWithin fuel false rest
    return (first :: more, rest)
  | .keyword .or _ :: rest => do
    let (more, rest) ← conditionsWithin fuel true rest
    return (first :: more, rest)
  | rest => return ([first], rest)

theorem conditionsWithin_succ (fuel : Nat) (isOr : Bool) :
    conditionsWithin (fuel + 1) isOr = fun ts =>
      condition isOr ts >>= fun read => afterCondition fuel read.1 read.2 := rfl

theorem isLocal_afterCondition {fuel : Nat}
    (inner : ∀ isOr, IsLocal (conditionsWithin fuel isOr)) (first : Condition) :
    IsLocal (afterCondition fuel first) := by
  refine .of_front (isLocal_pure [first]) rfl fun t => ?_
  cases t with
  | keyword k word =>
    cases k with
    | and => exact .take ((inner false).bind fun more => isLocal_pure (first :: more)) fun _ => rfl
    | or => exact .take ((inner true).bind fun more => isLocal_pure (first :: more)) fun _ => rfl
    | _ => exact .leave (isLocal_pure [first]) fun _ => rfl
  | _ => exact .leave (isLocal_pure [first]) fun _ => rfl

theorem isLocal_conditionsWithin (fuel : Nat) (isOr : Bool) :
    IsLocal (conditionsWithin fuel isOr) := by
  induction fuel generalizing isOr with
  | zero => exact isLocal_refuse
  | succ fuel ih =>
    rw [conditionsWithin_succ]
    exact (isLocal_condition isOr).bind (isLocal_afterCondition ih)

theorem conditionsWithin_eq_of_enough {ts : List Token} {fuel other : Nat}
    (enough : ts.length < fuel) (enough' : ts.length < other) (isOr : Bool) :
    conditionsWithin fuel isOr ts = conditionsWithin other isOr ts := by
  induction fuel generalizing ts other isOr with
  | zero => exact absurd enough (Nat.not_lt_zero _)
  | succ fuel ih =>
    obtain _ | other := other
    · exact absurd enough' (Nat.not_lt_zero _)
    rw [conditionsWithin_succ, conditionsWithin_succ]
    obtain ⟨c?, rest, read⟩ := exists_outcome (condition isOr ts)
    dsimp only
    rw [read]
    have short := ((isLocal_condition isOr).suffix read).length_le
    cases c? with
    | none => rfl
    | some first =>
      change afterCondition fuel first rest = afterCondition other first rest
      unfold afterCondition
      split
      · rename_i rest
        rw [List.length_cons] at short
        rw [ih (by omega) (by omega : rest.length < other)]
      · rename_i rest
        rw [List.length_cons] at short
        rw [ih (by omega) (by omega : rest.length < other)]
      · rfl

theorem isLocal_conditions : IsLocal conditions := by
  have listed : IsLocal fun ts => conditionsWithin (ts.length + 1) false ts :=
    .of_fuel (fun fuel => isLocal_conditionsWithin fuel false) fun enough =>
      conditionsWithin_eq_of_enough enough (Nat.lt_succ_self _) false
  refine .of_front (isLocal_pure []) rfl fun t => ?_
  cases t with
  | keyword k word =>
    cases k with
    | condition => exact .take listed fun _ => rfl
    | _ => exact .leave (isLocal_pure []) fun _ => rfl
  | _ => exact .leave (isLocal_pure []) fun _ => rfl

/-! ## Clauses -/

/-- What follows the field to sort by: a direction, or nothing. -/
def afterField (field : String) : Reader SortKey
  | .keyword .ascending _ :: rest => return (⟨field, .ascending⟩, rest)
  | .keyword .descending _ :: rest => return (⟨field, .descending⟩, rest)
  | rest => return (⟨field, .ascending⟩, rest)

theorem isLocal_afterField (field : String) : IsLocal (afterField field) := by
  refine .of_front (isLocal_pure ⟨field, .ascending⟩) rfl fun t => ?_
  cases t with
  | keyword k word =>
    cases k with
    | ascending => exact .take (isLocal_pure ⟨field, .ascending⟩) fun _ => rfl
    | descending => exact .take (isLocal_pure ⟨field, .descending⟩) fun _ => rfl
    | _ => exact .leave (isLocal_pure ⟨field, .ascending⟩) fun _ => rfl
  | _ => exact .leave (isLocal_pure ⟨field, .ascending⟩) fun _ => rfl

theorem isLocal_sortKey : IsLocal sortKey := isLocal_path.bind isLocal_afterField

/-- What follows a sort key: a comma and further sort keys, or nothing. -/
def afterSortKey (fuel : Nat) (key : SortKey) : Reader (List SortKey)
  | .symbol .comma :: rest => do
    let (keys, rest) ← sortKeysWithin fuel rest
    return (key :: keys, rest)
  | rest => return ([key], rest)

theorem sortKeysWithin_succ (fuel : Nat) : sortKeysWithin (fuel + 1) = fun ts =>
    sortKey ts >>= fun read => afterSortKey fuel read.1 read.2 := rfl

theorem isLocal_afterSortKey {fuel : Nat} (inner : IsLocal (sortKeysWithin fuel))
    (key : SortKey) : IsLocal (afterSortKey fuel key) := by
  refine .of_front (isLocal_pure [key]) rfl fun t => ?_
  cases t with
  | symbol s =>
    cases s with
    | comma => exact .take (inner.bind fun keys => isLocal_pure (key :: keys)) fun _ => rfl
    | _ => exact .leave (isLocal_pure [key]) fun _ => rfl
  | _ => exact .leave (isLocal_pure [key]) fun _ => rfl

theorem isLocal_sortKeysWithin (fuel : Nat) : IsLocal (sortKeysWithin fuel) := by
  induction fuel with
  | zero => exact isLocal_refuse
  | succ fuel ih =>
    rw [sortKeysWithin_succ]
    exact isLocal_sortKey.bind (isLocal_afterSortKey ih)

theorem sortKeysWithin_eq_of_enough {ts : List Token} {fuel other : Nat}
    (enough : ts.length < fuel) (enough' : ts.length < other) :
    sortKeysWithin fuel ts = sortKeysWithin other ts := by
  induction fuel generalizing ts other with
  | zero => exact absurd enough (Nat.not_lt_zero _)
  | succ fuel ih =>
    obtain _ | other := other
    · exact absurd enough' (Nat.not_lt_zero _)
    rw [sortKeysWithin_succ, sortKeysWithin_succ]
    obtain ⟨key?, rest, read⟩ := exists_outcome (sortKey ts)
    dsimp only
    rw [read]
    have short := (isLocal_sortKey.suffix read).length_le
    cases key? with
    | none => rfl
    | some key =>
      change afterSortKey fuel key rest = afterSortKey other key rest
      unfold afterSortKey
      split
      · rename_i rest
        rw [List.length_cons] at short
        rw [ih (by omega) (by omega : rest.length < other)]
      · rfl

theorem isLocal_sortBy : IsLocal sortBy := by
  have listed : IsLocal fun ts => sortKeysWithin (ts.length + 1) ts :=
    .of_fuel isLocal_sortKeysWithin fun enough =>
      sortKeysWithin_eq_of_enough enough (Nat.lt_succ_self _)
  refine .of_front (isLocal_pure []) rfl fun t => ?_
  cases t with
  | keyword k word =>
    cases k with
    | sort => exact .take ((readsOne_keyword .sortBy).isLocal.bind fun _ => listed) fun _ => rfl
    | _ => exact .leave (isLocal_pure []) fun _ => rfl
  | _ => exact .leave (isLocal_pure []) fun _ => rfl

theorem isLocal_offset : IsLocal offset := by
  refine .of_front (isLocal_pure 0) rfl fun t => ?_
  cases t with
  | keyword k word =>
    cases k with
    | offset => exact .take readsOne_integer.isLocal fun _ => rfl
    | _ => exact .leave (isLocal_pure 0) fun _ => rfl
  | _ => exact .leave (isLocal_pure 0) fun _ => rfl

theorem isLocal_limit : IsLocal limit := by
  refine .of_front (isLocal_pure none) rfl fun t => ?_
  cases t with
  | keyword k word =>
    cases k with
    | limit => exact .take (readsOne_integer.isLocal.bind fun n => isLocal_pure (some n)) fun _ => rfl
    | _ => exact .leave (isLocal_pure none) fun _ => rfl
  | _ => exact .leave (isLocal_pure none) fun _ => rfl

theorem isLocal_usingIndex : IsLocal usingIndex := by
  refine .of_front (isLocal_pure none) rfl fun t => ?_
  cases t with
  | keyword k word =>
    cases k with
    | usingIndex =>
      exact .take (readsOne_identifier.isLocal.bind fun name => isLocal_pure (some name)) fun _ => rfl
    | _ => exact .leave (isLocal_pure none) fun _ => rfl
  | _ => exact .leave (isLocal_pure none) fun _ => rfl

theorem isLocal_bounds : IsLocal bounds := by
  refine .of_front (isLocal_pure none) rfl fun t => ?_
  cases t with
  | keyword k word =>
    cases k with
    | inclusive => exact .take (isLocal_pure (some true)) fun _ => rfl
    | exclusive => exact .take (isLocal_pure (some false)) fun _ => rfl
    | _ => exact .leave (isLocal_pure none) fun _ => rfl
  | _ => exact .leave (isLocal_pure none) fun _ => rfl

/-! ## Statements -/

theorem isLocal_retrieval : IsLocal retrieval := by
  refine .of_front (isLocal_pure .scan) rfl fun t => ?_
  cases t with
  | keyword k word =>
    cases k with
    | get =>
      exact .take (isLocal_values.bind fun keys => isLocal_usingIndex.bind fun index? =>
        isLocal_pure (.ofKeys keys index?)) fun _ => rfl
    | between =>
      exact .take (isLocal_value.bind fun left => (readsOne_keyword .and).isLocal.bind fun _ =>
        isLocal_value.bind fun right => isLocal_usingIndex.bind fun index? =>
          isLocal_bounds.bind fun inclusive? =>
            isLocal_pure (.between left right index? inclusive?)) fun _ => rfl
    | _ => exact .leave (isLocal_pure .scan) fun _ => rfl
  | _ => exact .leave (isLocal_pure .scan) fun _ => rfl

theorem isLocal_afterSemicolon (s : Statement) : IsLocal fun ts => .ok (s, afterSemicolon ts) := by
  refine .of_front (isLocal_pure s) rfl fun t => ?_
  cases t with
  | symbol mark =>
    cases mark with
    | semicolon => exact .take (isLocal_pure s) fun _ => rfl
    | _ => exact .leave (isLocal_pure s) fun _ => rfl
  | _ => exact .leave (isLocal_pure s) fun _ => rfl

theorem isLocal_statement : IsLocal statement :=
  isLocal_retrieval.bind fun retrieval => isLocal_conditions.bind fun conditions =>
    isLocal_sortBy.bind fun sortBy => isLocal_offset.bind fun offset =>
      isLocal_limit.bind fun limit =>
        isLocal_afterSemicolon ⟨retrieval, conditions, sortBy, offset, limit⟩

end Read

end RecordQuery.Itq
