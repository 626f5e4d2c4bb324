import RecordQuery.Proofs.Itq.Reading.Phrases

/-!
# Reading values

Values nest, so a single value and a list of values are read by turns. The fuel is enough for every
value at the front of the tokens: a value takes two calls for each of its tokens at most.
-/

namespace RecordQuery.Itq.Read

open Grammar

theorem isValue_of_literal? {t : Token} {v : Value} (literal : t.literal? = some v) :
    IsValue [t] v := by
  cases t with
  | integer n => cases literal; exact .integer n
  | float x => cases literal; exact .float x
  | string s => cases literal; exact .string s
  | keyword k word =>
    cases k <;> cases literal
    · exact .true word
    · exact .false word
    · exact .null word
  | identifier name => cases literal
  | symbol s => cases literal

/-- A single value is sound if the values in its brackets are. -/
theorem isSound_valueWithin_succ {fuel : Nat}
    (inner : IsSound (valuesWithin fuel) (IsListOf IsValue)) :
    IsSound (valueWithin (fuel + 1)) IsValue := by
  intro ts v rest read
  cases ts with
  | nil => cases read
  | cons t ts =>
    unfold valueWithin at read
    split at read
    · rename_i literal
      cases read
      exact ⟨[t], rfl, isValue_of_literal? literal⟩
    · split at read
      · cases read
        exact ⟨[.symbol .leftBracket, .symbol .rightBracket], rfl, .list .empty⟩
      · rcases bind_eq_ok.mp read with ⟨⟨vs, others⟩, items, read⟩
        rcases bind_eq_ok.mp read with ⟨⟨_, others'⟩, closed, read⟩
        cases read
        rcases inner items with ⟨used, tokens, phrase⟩
        rw [symbol_eq_ok.mp closed] at tokens
        refine ⟨_, ?_, .list (.values phrase)⟩
        rw [tokens]
        simp
      · cases read

/-- Values are sound if each of them is and those after the first comma are. -/
theorem isSound_valuesWithin_succ {fuel : Nat} (one : IsSound (valueWithin fuel) IsValue)
    (more : IsSound (valuesWithin fuel) (IsListOf IsValue)) :
    IsSound (valuesWithin (fuel + 1)) (IsListOf IsValue) := by
  intro ts vs rest read
  rw [valuesWithin] at read
  rcases bind_eq_ok.mp read with ⟨⟨v, others⟩, first, read⟩
  rcases one first with ⟨used, tokens, phrase⟩
  dsimp only at read
  split at read
  · rcases bind_eq_ok.mp read with ⟨⟨vs, others'⟩, following, read⟩
    cases read
    rcases more following with ⟨used', tokens', phrase'⟩
    refine ⟨_, ?_, IsListOf.cons phrase phrase'⟩
    rw [tokens, tokens']
    simp
  · cases read
    exact ⟨used, tokens, .single phrase⟩

theorem isSound_within (fuel : Nat) : IsSound (valueWithin fuel) IsValue ∧
    IsSound (valuesWithin fuel) (IsListOf IsValue) := by
  induction fuel with
  | zero =>
    constructor <;> intro ts a rest read
    · rw [valueWithin] at read
      cases read
    · rw [valuesWithin] at read
      cases read
  | succ fuel ih =>
    exact ⟨isSound_valueWithin_succ ih.2, isSound_valuesWithin_succ ih.1 ih.2⟩

/-- A value never begins with a right bracket, which could only end the brackets around it. -/
theorem avoids_rightBracket {used : List Token} {v : Value} (phrase : IsValue used v)
    (rest : List Token) : Avoids [.symbol .rightBracket] (used ++ rest) := by
  intro mark member front
  rw [List.mem_singleton.mp member] at front
  cases phrase with
  | list literal => cases literal <;> cases front
  | _ => cases front

theorem length_pos_of_isValue {used : List Token} {v : Value} (phrase : IsValue used v) :
    0 < used.length := by
  cases phrase with
  | list literal => cases literal <;> simp
  | _ => simp

theorem valueWithin_literal {fuel : Nat} {t : Token} {v : Value} (literal : t.literal? = some v)
    (rest : List Token) : valueWithin (fuel + 1) (t :: rest) = .ok (v, rest) := by
  unfold valueWithin
  rw [literal]

theorem valueWithin_brackets {fuel : Nat} {ts : List Token}
    (filled : Avoids [.symbol .rightBracket] ts) :
    valueWithin (fuel + 1) (.symbol .leftBracket :: ts) = (do
      let (items, rest) ← valuesWithin fuel ts
      let ((), rest) ← symbol .rightBracket rest
      return (.list items, rest)) := by
  rw [valueWithin]
  · rfl
  · rintro rest rfl
    exact filled _ (List.mem_singleton_self _) rfl

/-- The fuel is enough for every value of at most half as many tokens, counted up. -/
def ReadsValue (fuel : Nat) : Prop :=
  ∀ {used : List Token} {v : Value} {rest : List Token}, IsValue used v →
    2 * used.length ≤ fuel + 1 → valueWithin fuel (used ++ rest) = .ok (v, rest)

/-- The fuel is enough for all values of at most half as many tokens, counted down. -/
def ReadsValues (fuel : Nat) : Prop :=
  ∀ {used : List Token} {vs : List Value} {rest : List Token}, IsListOf IsValue used vs →
    2 * used.length ≤ fuel → Avoids [.symbol .comma] rest →
    valuesWithin fuel (used ++ rest) = .ok (vs, rest)

theorem readsValue_succ {fuel : Nat} (inner : ReadsValues fuel) : ReadsValue (fuel + 1) := by
  intro used v rest phrase bound
  cases phrase with
  | list literal =>
    cases literal with
    | empty => rfl
    | @values ts vs items =>
      obtain ⟨us, first, value, split⟩ := items.uncons
      have filled : Avoids [.symbol .rightBracket] (ts ++ .symbol .rightBracket :: rest) := by
        rcases split with ⟨tokens, _⟩ | ⟨_, _, _, tokens, _⟩
        · rw [tokens]
          exact avoids_rightBracket value _
        · rw [tokens, List.append_assoc]
          exact avoids_rightBracket value _
      have closed : Avoids [.symbol .comma] (.symbol .rightBracket :: rest) :=
        avoids_of_front rfl (by decide)
      have short : 2 * ts.length ≤ fuel := by
        simp only [List.length_cons, List.length_append, List.length_nil] at bound
        omega
      rw [List.cons_append, List.append_assoc, List.singleton_append, valueWithin_brackets filled]
      refine bind_eq_ok.mpr ⟨_, inner items short closed, ?_⟩
      exact bind_eq_ok.mpr ⟨_, symbol_eq_ok.mpr rfl, rfl⟩
  | _ => exact valueWithin_literal rfl rest

theorem readsValues_succ {fuel : Nat} (one : ReadsValue fuel) (more : ReadsValues fuel) :
    ReadsValues (fuel + 1) := by
  intro used vs rest phrase bound avoids
  rw [valuesWithin]
  obtain ⟨us, first, value, ⟨rfl, rfl⟩ | ⟨ts, others, list, rfl, rfl⟩⟩ := phrase.uncons
  · refine bind_eq_ok.mpr ⟨_, one value (by omega), ?_⟩
    dsimp only
    split
    · exact absurd rfl (avoids _ (List.mem_singleton_self _))
    · rfl
  · have filled := length_pos_of_isValue value
    rw [List.length_append, List.length_cons] at bound
    rw [List.append_assoc]
    refine bind_eq_ok.mpr ⟨_, one value (by omega), ?_⟩
    exact bind_eq_ok.mpr ⟨_, more list (by omega) avoids, rfl⟩

theorem reads_within (fuel : Nat) : ReadsValue fuel ∧ ReadsValues fuel := by
  induction fuel with
  | zero =>
    constructor
    · intro used v rest phrase bound
      have filled := length_pos_of_isValue phrase
      omega
    · intro used vs rest phrase bound avoids
      obtain ⟨us, first, value, ⟨rfl, _⟩ | ⟨_, _, _, rfl, _⟩⟩ := phrase.uncons
      · have filled := length_pos_of_isValue value
        omega
      · rw [List.length_append, List.length_cons] at bound
        omega
  | succ fuel ih => exact ⟨readsValue_succ ih.2, readsValues_succ ih.1 ih.2⟩

theorem reads_value : Reads value IsValue [] where
  sound read := (isSound_within _).1 read
  complete := by
    intro used v rest phrase _
    refine (reads_within _).1 phrase ?_
    rw [fuelFor, List.length_append]
    omega

theorem reads_values : Reads values (IsListOf IsValue) [.symbol .comma] where
  sound read := (isSound_within _).2 read
  complete := by
    intro used vs rest phrase avoids
    refine (reads_within _).2 phrase ?_ avoids
    rw [fuelFor, List.length_append]
    omega

/-- A value that begins with a left bracket is a list literal. -/
theorem isListLiteral_of_leftBracket {ts : List Token} {v : Value}
    (phrase : IsValue (.symbol .leftBracket :: ts) v) :
    IsListLiteral (.symbol .leftBracket :: ts) v := by
  cases phrase with
  | list literal => exact literal

theorem reads_listLiteral : Reads listLiteral IsListLiteral [] where
  sound := by
    intro ts v rest read
    unfold listLiteral at read
    split at read
    · rcases reads_value.sound read with ⟨used, tokens, phrase⟩
      have filled := length_pos_of_isValue phrase
      cases used with
      | nil => exact absurd filled (Nat.lt_irrefl 0)
      | cons t used =>
        cases tokens
        exact ⟨_, rfl, isListLiteral_of_leftBracket phrase⟩
    · cases read
  complete := by
    intro used v rest phrase avoids
    have read := reads_value.complete (.list phrase) avoids
    cases phrase <;> exact read

end RecordQuery.Itq.Read
