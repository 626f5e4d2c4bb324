import Mathlib
import RecordQuery.Number.Quantity

/-!
# Numbers on the extended line

The places of numbers stand for extended rationals, and they compare as these do
(`Place.compare_eq_cmp`). A decimal c · 10^e has its place in units of 5^e, so that a decimal and a
number compare as extended rationals as well (`Quantity.compare?_eq_cmp`).
-/

namespace RecordQuery

/-! ## Places -/

namespace Place

/-- The rational number s · 2^e. -/
def ratio (significand exponent : Int) : ℚ := significand * 2 ^ exponent

/-- The extended rational that a place stands for. -/
def value : Place → WithBot (WithTop ℚ)
  | .below => ⊥
  | .finite significand exponent => (ratio significand exponent : WithTop ℚ)
  | .above => (⊤ : WithTop ℚ)

theorem cast_scaledTo {low exponent : Int} (least : low ≤ exponent) (significand : Int) :
    (scaledTo low significand exponent : ℚ) = ratio significand exponent * 2 ^ (-low) := by
  have shift : ((exponent - low).toNat : Int) = exponent - low := by omega
  have power : scaledTo low significand exponent =
      significand * 2 ^ (exponent - low).toNat := rfl
  rw [power, ratio, Int.cast_mul, Int.cast_pow, mul_assoc,
    ← zpow_add₀ (by norm_num : (2 : ℚ) ≠ 0), ← sub_eq_add_neg, ← shift, zpow_natCast]
  norm_cast

/-- Scaling two significands to the smaller exponent keeps the order of the ratios. -/
theorem cmp_scaledTo (s e t f : Int) :
    cmp (scaledTo (min e f) s e) (scaledTo (min e f) t f) = cmp (ratio s e) (ratio t f) := by
  have positive : (0 : ℚ) < 2 ^ (-(min e f)) := by positivity
  have left := cast_scaledTo (min_le_left e f) s
  have right := cast_scaledTo (min_le_right e f) t
  have scaled := cmp_mul_pos_right positive (ratio s e) (ratio t f)
  rw [← left, ← right] at scaled
  rw [← scaled]
  simp only [cmp, cmpUsing, Int.cast_lt]

/-- Places compare as the extended rationals that they stand for. -/
theorem compare_eq_cmp (p q : Place) : p.compare q = cmp p.value q.value := by
  cases p with
  | below => cases q <;> simp [compare, value, cmp, cmpUsing]
  | above =>
    cases q with
    | finite t f =>
      have less : ((ratio t f : WithTop ℚ) : WithBot (WithTop ℚ)) < (⊤ : WithTop ℚ) :=
        WithBot.coe_lt_coe.mpr (WithTop.coe_lt_top _)
      exact ((cmp_eq_gt_iff _ _).mpr less).symm
    | _ => simp [compare, value, cmp, cmpUsing]
  | finite s e =>
    cases q with
    | finite t f =>
      rw [compare, ← cmp_eq_compare, cmp_scaledTo]
      simp [value, cmp, cmpUsing]
    | _ => simp [compare, value, cmp, cmpUsing]

/-! ## Places in units of a power of five -/

/-- The extended rational that a place stands for in units of 5^e. -/
def valueIn (unit : Int) : Place → WithBot (WithTop ℚ)
  | .below => ⊥
  | .finite significand exponent => ((ratio significand exponent * 5 ^ unit : ℚ) : WithTop ℚ)
  | .above => (⊤ : WithTop ℚ)

theorem valueIn_zero (p : Place) : p.valueIn 0 = p.value := by
  cases p with
  | finite s e => rw [valueIn, value, zpow_zero, mul_one]
  | _ => rfl

/-- Bringing a place to a smaller unit keeps what it stands for. -/
theorem value_timesFive {low unit : Int} (least : low ≤ unit) (s e : Int) :
    ((finite s e).timesFive (unit - low)).value =
      ((ratio s e * 5 ^ unit * 5 ^ (-low) : ℚ) : WithTop ℚ) := by
  have shift : ((unit - low).toNat : Int) = unit - low := by omega
  have brought : (finite s e).timesFive (unit - low) = .finite (s * 5 ^ (unit - low).toNat) e := rfl
  have ratios : ratio (s * 5 ^ (unit - low).toNat) e = ratio s e * 5 ^ unit * 5 ^ (-low) := by
    rw [ratio, ratio, Int.cast_mul, Int.cast_pow, mul_assoc (_ * _) _ _,
      ← zpow_add₀ (by norm_num : (5 : ℚ) ≠ 0), ← sub_eq_add_neg]
    nth_rewrite 2 [← shift]
    rw [zpow_natCast]
    push_cast
    ring
  rw [brought, value, ratios]

/-- Places in units of their own compare as the extended rationals that they stand for. -/
theorem compare_timesFive (p q : Place) (e f : Int) :
    (p.timesFive (e - min e f)).compare (q.timesFive (f - min e f)) =
      cmp (p.valueIn e) (q.valueIn f) := by
  have top (x : ℚ) : ((x : WithTop ℚ) : WithBot (WithTop ℚ)) < (⊤ : WithTop ℚ) :=
    WithBot.coe_lt_coe.mpr (WithTop.coe_lt_top x)
  have bottom (x : ℚ) : ⊥ < ((x : WithTop ℚ) : WithBot (WithTop ℚ)) := WithBot.bot_lt_coe _
  have toTop (x : ℚ) := (cmp_eq_lt_iff _ _).mpr (top x)
  have fromTop (x : ℚ) := (cmp_eq_gt_iff _ _).mpr (top x)
  have toBottom (x : ℚ) := (cmp_eq_gt_iff _ _).mpr (bottom x)
  have fromBottom (x : ℚ) := (cmp_eq_lt_iff _ _).mpr (bottom x)
  rw [compare_eq_cmp]
  cases p with
  | finite s a =>
    cases q with
    | finite t b =>
      have positive : (0 : ℚ) < 5 ^ (-(min e f)) := by positivity
      have scaled := cmp_mul_pos_right positive (ratio s a * 5 ^ e) (ratio t b * 5 ^ f)
      have embedded (x y : ℚ) : cmp ((x : WithTop ℚ) : WithBot (WithTop ℚ)) (y : WithTop ℚ) =
          cmp x y := by
        simp [cmp, cmpUsing]
      rw [value_timesFive (min_le_left e f), value_timesFive (min_le_right e f), valueIn, valueIn,
        embedded, embedded, scaled]
    | below => exact (toBottom _).trans (toBottom _).symm
    | above => exact (toTop _).trans (toTop _).symm
  | below =>
    cases q with
    | finite t b => exact (fromBottom _).trans (fromBottom _).symm
    | _ => rfl
  | above =>
    cases q with
    | finite t b => exact (fromTop _).trans (fromTop _).symm
    | _ => rfl

end Place

/-! ## Numbers and decimals -/

/-- The extended rational that a number stands for; not-a-number stands for none. -/
def Numeric.value? (n : Numeric) : Option (WithBot (WithTop ℚ)) := n.place?.map Place.value

namespace Quantity

/-- The extended rational that a quantity stands for; not-a-number stands for none. -/
def value? (q : Quantity) : Option (WithBot (WithTop ℚ)) :=
  q.place?.map fun place => place.1.valueIn place.2

theorem value?_numeric (n : Numeric) : (numeric n).value? = n.value? := by
  unfold value? place? Numeric.value?
  rw [Option.map_map]
  exact congrArg (n.place?.map ·) (funext Place.valueIn_zero)

/-- A decimal stands for its coefficient times its power of ten. -/
theorem value?_decimal (negative : Bool) (d : Decimal) :
    (decimal negative d).value? =
      some (((if negative then -d.coefficient else d.coefficient : ℚ) * 10 ^ d.exponent : ℚ) :
        WithTop ℚ) := by
  obtain ⟨coefficient, exponent⟩ := d
  have tens : (10 : ℚ) ^ exponent = 2 ^ exponent * 5 ^ exponent := by
    rw [← mul_zpow]
    norm_num
  unfold value? place?
  rw [Option.map_some, Place.valueIn, Place.ratio, tens]
  cases negative <;> simp [mul_assoc]

/-- Two quantities compare as the extended rationals that they stand for. -/
theorem compare?_eq_cmp (a b : Quantity) :
    a.compare? b = a.value?.bind fun x => b.value?.map fun y => cmp x y := by
  unfold compare? value?
  cases a.place? with
  | none => rfl
  | some left =>
    cases b.place? with
    | none => rfl
    | some right => exact congrArg some (Place.compare_timesFive left.1 right.1 left.2 right.2)

/-- Two numbers compare as quantities as they do as numbers. -/
theorem compare?_numeric (m n : Numeric) : (numeric m).compare? (numeric n) = m.compare? n := by
  rw [compare?_eq_cmp, value?_numeric, value?_numeric]
  unfold Numeric.compare? Numeric.value?
  cases m.place? with
  | none => rfl
  | some p =>
    cases n.place? with
    | none => rfl
    | some q => exact congrArg some (Place.compare_eq_cmp p q).symm

theorem compare?_swap (a b : Quantity) : b.compare? a = (a.compare? b).map Ordering.swap := by
  rw [compare?_eq_cmp, compare?_eq_cmp]
  cases a.value? with
  | none => cases b.value? <;> rfl
  | some x =>
    cases b.value? with
    | none => rfl
    | some y => exact congrArg some (cmp_swap x y).symm

/-! ## Sameness -/

variable {a b c : Quantity}

theorem isSame_iff :
    a.isSame b = true ↔ a = b ∨ ∃ x, a.value? = some x ∧ b.value? = some x := by
  unfold isSame
  rw [compare?_eq_cmp, Bool.or_eq_true, beq_iff_eq, beq_iff_eq, or_comm]
  refine or_congr_right ?_
  cases a.value? with
  | none => simp
  | some x =>
    cases b.value? with
    | none => simp
    | some y => simpa using (cmp_eq_eq_iff x y).trans eq_comm

theorem isSame_symm (same : a.isSame b = true) : b.isSame a = true := by
  rw [isSame_iff] at same ⊢
  rcases same with rfl | ⟨x, left, right⟩
  · exact .inl rfl
  · exact .inr ⟨x, right, left⟩

theorem isSame_trans (left : a.isSame b = true) (right : b.isSame c = true) :
    a.isSame c = true := by
  rw [isSame_iff] at left right ⊢
  rcases left with rfl | ⟨x, first, second⟩
  · exact right
  · rcases right with rfl | ⟨y, second', third⟩
    · exact .inr ⟨x, first, second⟩
    · rw [second] at second'
      cases second'
      exact .inr ⟨x, first, third⟩

end Quantity

end RecordQuery
