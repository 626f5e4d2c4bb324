import Mathlib
import RecordQuery.Proofs.Key.Order

/-!
# The comparison of composite keys

Which of two components comes before the other is said of the values themselves: null before all
else, numbers and truth values by exact value, and behind them the rest by text (`Value.Precedes`,
`Value.Ties`). The first components that do not tie decide over two keys, and a key comes before its
extensions (`Value.KeyPrecedes`). Each two components, and so each two keys, are in just one of these
relations, and the comparison of keys tells which (`Value.toKey_compare`).
-/

namespace RecordQuery

namespace Value

/-! ## Components -/

/-- The exact value of a number or truth value, on the line of the rationals with its two ends. -/
def exactValue? : Value → Option (WithBot (WithTop ℚ))
  | .bool b => some (((if b then 1 else 0 : ℚ) : WithTop ℚ) : WithBot (WithTop ℚ))
  | .int n => some (((n : ℚ) : WithTop ℚ) : WithBot (WithTop ℚ))
  | .float (.infinite negative) => some (if negative then ⊥ else ((⊤ : WithTop ℚ) : WithBot _))
  | .float (.finite negative m e) =>
    some (((if negative then -m * 2 ^ e else m * 2 ^ e : ℚ) : WithTop ℚ) : WithBot (WithTop ℚ))
  | _ => none

/-- The value is neither null nor a number or truth value. -/
def IsOther (v : Value) : Prop := v ≠ .null ∧ v.numeric? = none

/-- The component comes before another one in keys. -/
inductive Precedes : Value → Value → Prop where
  | missing {w : Value} (other : w ≠ .null) : Precedes .null w
  | number {v w : Value} {x y : WithBot (WithTop ℚ)} (left : v.exactValue? = some x)
      (right : w.exactValue? = some y) (less : x < y) : Precedes v w
  | numberFirst {v w : Value} {x : WithBot (WithTop ℚ)} (left : v.exactValue? = some x)
      (right : w.IsOther) : Precedes v w
  | text {v w : Value} (left : v.IsOther) (right : w.IsOther) (less : v.text < w.text) :
      Precedes v w

/-- The component has the place of another one in keys. -/
inductive Ties : Value → Value → Prop where
  | missing : Ties .null .null
  | number {v w : Value} {x : WithBot (WithTop ℚ)} (left : v.exactValue? = some x)
      (right : w.exactValue? = some x) : Ties v w
  | text {v w : Value} (left : v.IsOther) (right : w.IsOther) (same : v.text = w.text) : Ties v w

variable {v w : Value} {x y : WithBot (WithTop ℚ)}

theorem Ties.symm (ties : v.Ties w) : w.Ties v := by
  cases ties with
  | missing => exact .missing
  | number left right => exact .number right left
  | text left right same => exact .text right left same.symm

/-- An exact value is that of a place on the line. -/
theorem exists_place (exactly : v.exactValue? = some x) :
    ∃ n p, v.numeric? = some n ∧ n.place? = some p ∧ p.value = x := by
  cases v with
  | bool b =>
    cases exactly
    refine ⟨_, _, rfl, rfl, ?_⟩
    cases b <;> simp [Place.value, Place.ratio]
  | int n =>
    cases exactly
    exact ⟨_, _, rfl, rfl, by simp [Place.value, Place.ratio]⟩
  | float x =>
    cases x with
    | nan payload => cases exactly
    | infinite negative =>
      cases exactly
      cases negative <;> exact ⟨_, _, rfl, rfl, rfl⟩
    | finite negative m e =>
      cases exactly
      cases negative <;> exact ⟨_, _, rfl, rfl, by simp [Place.value, Place.ratio]⟩
  | _ => cases exactly

/-- A component is null, a number or truth value, or something else. -/
theorem eq_null_or_exact_or_isOther (proper : v.isNaN = false) :
    v = .null ∨ (∃ x, v.exactValue? = some x) ∨ v.IsOther := by
  cases v with
  | null => exact .inl rfl
  | bool | int => exact .inr (.inl ⟨_, rfl⟩)
  | float x =>
    cases x with
    | nan payload => cases proper
    | infinite | finite => exact .inr (.inl ⟨_, rfl⟩)
  | _ => exact .inr (.inr ⟨nofun, rfl⟩)

theorem ofValue_of_isOther (other : v.IsOther) : KeyPart.ofValue v = .text v.text := by
  obtain ⟨filled, unnumbered⟩ := other
  cases v <;> simp_all [KeyPart.ofValue, numeric?]

/-- Numbers and truth values compare by exact value. -/
theorem compare_of_exact (left : v.exactValue? = some x) (right : w.exactValue? = some y) :
    (KeyPart.ofValue v).compare (KeyPart.ofValue w) = cmp x y := by
  obtain ⟨m, p, numeric, place, rfl⟩ := exists_place left
  obtain ⟨n, q, numeric', place', rfl⟩ := exists_place right
  rw [KeyPart.ofValue_of_numeric numeric, KeyPart.ofValue_of_numeric numeric', KeyPart.compare,
    Numeric.compare?, place, place', ← Place.compare_eq_cmp]
  rfl

theorem Precedes.compare_eq (precedes : v.Precedes w) :
    (KeyPart.ofValue v).compare (KeyPart.ofValue w) = .lt := by
  cases precedes with
  | missing other =>
    cases w with
    | null => exact absurd rfl other
    | _ => rfl
  | number left right less => exact (compare_of_exact left right).trans ((cmp_eq_lt_iff _ _).mpr less)
  | numberFirst left right =>
    obtain ⟨n, p, numeric, -, -⟩ := exists_place left
    rw [KeyPart.ofValue_of_numeric numeric, ofValue_of_isOther right]
    rfl
  | text left right less =>
    rw [ofValue_of_isOther left, ofValue_of_isOther right]
    exact compare_lt_iff_lt.mpr less

theorem Ties.compare_eq (ties : v.Ties w) :
    (KeyPart.ofValue v).compare (KeyPart.ofValue w) = .eq := by
  cases ties with
  | missing => rfl
  | number left right => exact (compare_of_exact left right).trans (cmp_self_eq_eq _)
  | text left right same =>
    rw [ofValue_of_isOther left, ofValue_of_isOther right, same]
    exact compare_eq_iff_eq.mpr rfl

/-- Of two components one comes before the other unless they tie. -/
theorem precedes_or_ties (proper : v.isNaN = false) (proper' : w.isNaN = false) :
    v.Precedes w ∨ v.Ties w ∨ w.Precedes v := by
  rcases eq_null_or_exact_or_isOther proper with rfl | ⟨x, left⟩ | left
  · by_cases same : w = .null
    · rw [same]
      exact .inr (.inl .missing)
    · exact .inl (.missing same)
  · rcases eq_null_or_exact_or_isOther proper' with rfl | ⟨y, right⟩ | right
    · exact .inr (.inr (.missing fun same => by cases same ▸ left))
    · rcases lt_trichotomy x y with less | rfl | greater
      · exact .inl (.number left right less)
      · exact .inr (.inl (.number left right))
      · exact .inr (.inr (.number right left greater))
    · exact .inl (.numberFirst left right)
  · rcases eq_null_or_exact_or_isOther proper' with rfl | ⟨y, right⟩ | right
    · exact .inr (.inr (.missing left.1))
    · exact .inr (.inr (.numberFirst right left))
    · rcases lt_trichotomy v.text w.text with less | same | greater
      · exact .inl (.text left right less)
      · exact .inr (.inl (.text left right same))
      · exact .inr (.inr (.text right left greater))

/-! ## Keys -/

/-- The components of a key come before those of another: they tie with the first of its components,
which are not all, or behind components that tie one comes first that precedes its counterpart. -/
inductive KeyPrecedes : List Value → List Value → Prop where
  | extension {front front' rest : List Value} {w : Value} (ties : List.Forall₂ Ties front front') :
      KeyPrecedes front (front' ++ w :: rest)
  | component {front front' rest rest' : List Value} {v w : Value}
      (ties : List.Forall₂ Ties front front') (first : v.Precedes w) :
      KeyPrecedes (front ++ v :: rest) (front' ++ w :: rest')

variable {vs ws front front' : List Value}

theorem KeyPrecedes.cons (ties : v.Ties w) (precedes : KeyPrecedes vs ws) :
    KeyPrecedes (v :: vs) (w :: ws) := by
  cases precedes with
  | extension front => exact .extension (.cons ties front)
  | component front first => exact .component (.cons ties front) first

theorem compare_append_of_ties (ties : List.Forall₂ Ties front front') (vs ws : List Value) :
    Key.compare ((front ++ vs).map KeyPart.ofValue) ((front' ++ ws).map KeyPart.ofValue) =
      Key.compare (vs.map KeyPart.ofValue) (ws.map KeyPart.ofValue) := by
  induction ties with
  | nil => rfl
  | cons first _ ih =>
    rw [List.cons_append, List.cons_append, List.map_cons, List.map_cons, Key.compare,
      first.compare_eq, ih]
    rfl

theorem KeyPrecedes.compare_eq (precedes : KeyPrecedes vs ws) :
    Key.compare (vs.map KeyPart.ofValue) (ws.map KeyPart.ofValue) = .lt := by
  cases precedes with
  | @extension _ front' rest w ties =>
    have shorter := compare_append_of_ties ties [] (w :: rest)
    rw [List.append_nil] at shorter
    exact shorter
  | component ties first =>
    rw [compare_append_of_ties ties, List.map_cons, List.map_cons, Key.compare, first.compare_eq]
    rfl

theorem compare_eq_of_ties (ties : List.Forall₂ Ties vs ws) :
    Key.compare (vs.map KeyPart.ofValue) (ws.map KeyPart.ofValue) = .eq := by
  have whole := compare_append_of_ties ties [] []
  rw [List.append_nil, List.append_nil] at whole
  exact whole

/-- Of two keys one comes before the other unless they tie. -/
theorem keyPrecedes_or_ties (proper : ∀ v ∈ vs, v.isNaN = false)
    (proper' : ∀ w ∈ ws, w.isNaN = false) :
    KeyPrecedes vs ws ∨ List.Forall₂ Ties vs ws ∨ KeyPrecedes ws vs := by
  induction vs generalizing ws with
  | nil =>
    cases ws with
    | nil => exact .inr (.inl .nil)
    | cons w ws => exact .inl (.extension .nil)
  | cons v vs ih =>
    cases ws with
    | nil => exact .inr (.inr (.extension .nil))
    | cons w ws =>
      rw [List.forall_mem_cons] at proper proper'
      rcases precedes_or_ties proper.1 proper'.1 with less | ties | greater
      · exact .inl (.component .nil less)
      · rcases ih proper.2 proper'.2 with less | same | greater
        · exact .inl (.cons ties less)
        · exact .inr (.inl (.cons ties same))
        · exact .inr (.inr (.cons ties.symm greater))
      · exact .inr (.inr (.component .nil greater))

/-! ## The comparison -/

/-- Proper keys compare as keys of which all parts have places on the line. -/
theorem toKey_compare_eq_rankOrder {u v : Value} (proper : u.IsProperKey)
    (proper' : v.IsProperKey) : u.toKey.compare v.toKey = u.toKey.rankOrder v.toKey :=
  Key.compare_eq_rankOrder (Key.isPlaced_toKey proper) (Key.isPlaced_toKey proper')

theorem toKey_compare_swap {u v : Value} (proper : u.IsProperKey) (proper' : v.IsProperKey) :
    v.toKey.compare u.toKey = (u.toKey.compare v.toKey).swap := by
  rw [toKey_compare_eq_rankOrder proper' proper, toKey_compare_eq_rankOrder proper proper']
  exact Std.OrientedCmp.eq_swap

/-- The comparison of proper keys tells how their components stand to one another. -/
theorem toKey_compare_iff {u v : Value} (proper : u.IsProperKey) (proper' : v.IsProperKey) :
    (u.toKey.compare v.toKey = .lt ↔ KeyPrecedes u.keyItems v.keyItems) ∧
      (u.toKey.compare v.toKey = .eq ↔ List.Forall₂ Ties u.keyItems v.keyItems) ∧
      (u.toKey.compare v.toKey = .gt ↔ KeyPrecedes v.keyItems u.keyItems) := by
  have less : KeyPrecedes u.keyItems v.keyItems → u.toKey.compare v.toKey = .lt :=
    KeyPrecedes.compare_eq
  have same : List.Forall₂ Ties u.keyItems v.keyItems → u.toKey.compare v.toKey = .eq :=
    compare_eq_of_ties
  have greater : KeyPrecedes v.keyItems u.keyItems → u.toKey.compare v.toKey = .gt := by
    intro precedes
    rw [toKey_compare_swap proper' proper]
    exact congrArg Ordering.swap precedes.compare_eq
  -- One of the three holds, and the comparison tells it from the others.
  rcases keyPrecedes_or_ties proper proper' with holds | holds | holds
  · have told := less holds
    grind
  · have told := same holds
    grind
  · have told := greater holds
    grind

/-- A key comes before its proper extensions. -/
theorem compare_of_prefix {a b : Key} (placed : a.IsPlaced) (shorter : a <+: b) (other : a ≠ b) :
    a.compare b = .lt := by
  obtain ⟨rest, rfl⟩ := shorter
  cases rest with
  | nil => exact absurd (List.append_nil a).symm other
  | cons part rest =>
    clear other
    induction a with
    | nil => rfl
    | cons x xs ih =>
      obtain ⟨head, tail⟩ := List.forall_mem_cons.mp placed
      have tie : x.rankOrder x = .eq := Std.ReflCmp.compare_self
      rw [List.cons_append, Key.compare, KeyPart.compare_eq_rankOrder head head, tie, ih tail]
      rfl

/-- **Keys are compared as a total preorder.** Of two key arguments without not-a-number among their
components, the comparison of their keys tells just one of three: the first comes before the second,
they tie, or the second comes before the first, as told by components. To come before is transitive,
and so is not to come behind; and a key that is a proper prefix of another one comes before it. -/
theorem toKey_compare {u v w : Value} (first : u.IsProperKey) (second : v.IsProperKey)
    (third : w.IsProperKey) :
    (u.toKey.compare v.toKey = .lt ↔ KeyPrecedes u.keyItems v.keyItems) ∧
      (u.toKey.compare v.toKey = .eq ↔ List.Forall₂ Ties u.keyItems v.keyItems) ∧
      (u.toKey.compare v.toKey = .gt ↔ KeyPrecedes v.keyItems u.keyItems) ∧
      (u.toKey.compare v.toKey = .lt → v.toKey.compare w.toKey = .lt →
        u.toKey.compare w.toKey = .lt) ∧
      ((u.toKey.compare v.toKey).isLE → (v.toKey.compare w.toKey).isLE →
        (u.toKey.compare w.toKey).isLE) ∧
      (u.toKey <+: v.toKey → u.toKey ≠ v.toKey → u.toKey.compare v.toKey = .lt) := by
  obtain ⟨less, same, greater⟩ := toKey_compare_iff first second
  refine ⟨less, same, greater, ?_, ?_, compare_of_prefix (Key.isPlaced_toKey first)⟩
  all_goals
    rw [toKey_compare_eq_rankOrder first second, toKey_compare_eq_rankOrder second third,
      toKey_compare_eq_rankOrder first third]
  · exact Std.TransCmp.lt_trans
  · exact Std.TransCmp.isLE_trans

/-- An odd integer beyond 2^53 comes before the next binary64 number, and that before the infinite
one; what these keys have in front comes before them; and `true` ties with 2 · 2^(-1). -/
theorem toKey_compare_of_large :
    let u : Value := .list [.null, .int 9007199254740993]
    let v : Value := .tuple [.null, .float (.finite false 4503599627370497 1), .str "x"]
    let w : Value := .list [.null, .float (.infinite false)]
    let lead : Value := .tuple [.null]
    (u.IsProperKey ∧ v.IsProperKey ∧ w.IsProperKey ∧ lead.IsProperKey) ∧
      KeyPrecedes u.keyItems v.keyItems ∧ u.toKey.compare w.toKey = .lt ∧
      (lead.toKey <+: u.toKey ∧ lead.toKey ≠ u.toKey ∧ lead.toKey.compare u.toKey = .lt) ∧
      List.Forall₂ Ties [.bool true] [.float (.finite false 2 (-1))] := by
  intro u v w lead
  have proper : u.IsProperKey ∧ v.IsProperKey ∧ w.IsProperKey ∧ lead.IsProperKey := by decide
  have less : u.toKey.compare v.toKey = .lt := by decide
  have less' : v.toKey.compare w.toKey = .lt := by decide
  have shorter : lead.toKey <+: u.toKey := ⟨[.number (.int 9007199254740993)], rfl⟩
  have other : lead.toKey ≠ u.toKey := by decide
  have tie : (Value.bool true).toKey.compare
      (Value.list [.float (.finite false 2 (-1))]).toKey = .eq := by decide
  have single : (Value.bool true).IsProperKey := by decide
  have listed : (Value.list [.float (.finite false 2 (-1))]).IsProperKey := by decide
  obtain ⟨before, -, -, further, -, -⟩ := toKey_compare proper.1 proper.2.1 proper.2.2.1
  obtain ⟨-, -, -, -, -, extended⟩ := toKey_compare proper.2.2.2 proper.1 proper.2.1
  obtain ⟨-, ties, -⟩ := toKey_compare single listed proper.1
  exact ⟨proper, before.mp less, further less less', ⟨shorter, other, extended shorter other⟩,
    ties.mp tie⟩

end Value

end RecordQuery
