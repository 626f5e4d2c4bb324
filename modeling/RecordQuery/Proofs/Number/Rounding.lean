import Mathlib
import RecordQuery.Number.Decimal
import RecordQuery.Proofs.Number.Truncation

/-!
# Integers brought to binary64

A binary64 number keeps 53 bits, so of the integers it is just those whose further bits are zeros
(`IsExact`). Every other integer is brought to one of them: its last bits are cut off or counted up
(`toNearest`), and none of them is nearer to it (`nearest_le`). What is too large even so is infinite
(`finite?_ofDecimal`).
-/

namespace RecordQuery.Binary64

/-! ## Quotients -/

theorem roundHalfEven_one (n : Nat) : roundHalfEven n 1 = n := by
  simp [roundHalfEven, Nat.mod_one]

theorem roundHalfEven_cases (n d : Nat) :
    roundHalfEven n d = n / d ∧ 2 * (n % d) ≤ d ∨
      roundHalfEven n d = n / d + 1 ∧ d ≤ 2 * (n % d) := by
  have parity := Nat.mod_two_eq_zero_or_one (n / d)
  unfold roundHalfEven
  dsimp only
  split
  · omega
  · split
    · omega
    · omega

/-- No multiple of the divisor is nearer than the rounded quotient's. -/
theorem roundHalfEven_nearest {d : Nat} (positive : 0 < d) (n k : Nat) :
    ((roundHalfEven n d * d : Nat) - (n : Int)).natAbs ≤ ((k * d : Nat) - (n : Int)).natAbs := by
  have whole : n / d * d + n % d = n := Nat.div_add_mod' n d
  have rest := Nat.mod_lt n positive
  have sides : k * d ≤ n / d * d ∨ (n / d + 1) * d ≤ k * d :=
    (Nat.lt_or_ge (n / d) k).symm.imp (Nat.mul_le_mul_right d) (Nat.mul_le_mul_right d)
  rw [Nat.succ_mul] at sides
  rcases roundHalfEven_cases n d with ⟨down, half⟩ | ⟨up, half⟩
  · rw [down]
    omega
  · rw [up, Nat.succ_mul]
    omega

theorem le_roundHalfEven {n d a : Nat} (positive : 0 < d) (below : a * d ≤ n) :
    a ≤ roundHalfEven n d := by
  have quotient := (Nat.le_div_iff_mul_le positive).mpr below
  have rounded := roundHalfEven_cases n d
  omega

theorem roundHalfEven_le {n d b : Nat} (positive : 0 < d) (above : n ≤ b * d) :
    roundHalfEven n d ≤ b := by
  have quotient : n / d ≤ b := Nat.div_le_of_le_mul (by rwa [Nat.mul_comm])
  rcases roundHalfEven_cases n d with ⟨down, -⟩ | ⟨up, half⟩
  · rwa [down]
  · -- A quotient that is counted up leaves a rest, so it is not the bound itself.
    have whole : n / d * d + n % d = n := Nat.div_add_mod' n d
    have less : n / d * d < b * d := by omega
    rw [up]
    exact Nat.lt_of_mul_lt_mul_right less

/-! ## The exact integers -/

/-- The integer is a binary64 number: it has at most 53 bits in front of the zeros that end it. -/
def IsExact (n : Int) : Prop :=
  ∃ c e : Nat, c < mantissaLimit ∧ (e : Int) ≤ greatestExponent ∧ n.natAbs = c * 2 ^ e

theorem mul_pow_lt {c e : Nat} (kept : c < mantissaLimit) : c * 2 ^ e < 2 ^ (53 + e) := by
  rw [Nat.pow_add]
  exact Nat.mul_lt_mul_of_pos_right kept (Nat.two_pow_pos e)

theorem isExact_iff_of_full {c e : Nat} (full : 2 ^ 52 ≤ c) (kept : c < mantissaLimit) :
    IsExact (c * 2 ^ e : Nat) ↔ (e : Int) ≤ greatestExponent := by
  constructor
  · rintro ⟨c', e', kept', bounded, same⟩
    have least : 2 ^ (52 + e) ≤ c * 2 ^ e := by
      rw [Nat.pow_add]
      exact Nat.mul_le_mul_right _ full
    have powers : 52 + e < 53 + e' := (Nat.pow_lt_pow_iff_right (by decide)).mp
      (least.trans_lt (same.trans_lt (mul_pow_lt kept')))
    omega
  · intro bounded
    exact ⟨c, e, kept, bounded, rfl⟩

/-! ## The nearest one -/

/-- The power of two that the last of the 53 bits of a natural counts. -/
def unitExponent (n : Nat) : Nat := n.log2 - 52

/-- The natural rounded to 53 bits, a half going to the even one. -/
def toNearest (n : Nat) : Nat := roundHalfEven n (2 ^ unitExponent n) * 2 ^ unitExponent n

/-- A natural of at most 53 bits stays. -/
theorem toNearest_of_narrow {n : Nat} (narrow : n.log2 ≤ 52) : toNearest n = n := by
  have unit : unitExponent n = 0 := Nat.sub_eq_zero_of_le narrow
  rw [toNearest, unit, Nat.pow_zero, Nat.mul_one, roundHalfEven_one]

theorem ne_zero_of_wide {n : Nat} (wide : 52 ≤ n.log2) : n ≠ 0 := by
  rintro rfl
  exact absurd wide (by decide)

theorem pow_unitExponent {n : Nat} (wide : 52 ≤ n.log2) :
    2 ^ 52 * 2 ^ unitExponent n = 2 ^ n.log2 := by
  rw [← Nat.pow_add, unitExponent, Nat.add_sub_cancel' wide]

/-- The rounded natural has 53 bits, or is the next power of two. -/
theorem mantissa_bounds {n : Nat} (wide : 52 ≤ n.log2) :
    2 ^ 52 ≤ roundHalfEven n (2 ^ unitExponent n) ∧
      roundHalfEven n (2 ^ unitExponent n) ≤ mantissaLimit := by
  have positive := Nat.two_pow_pos (unitExponent n)
  have least := Nat.log2_self_le (ne_zero_of_wide wide)
  have greatest := Nat.lt_log2_self (n := n)
  have unit := pow_unitExponent wide
  constructor
  · exact le_roundHalfEven positive (unit.trans_le least)
  · refine roundHalfEven_le positive ?_
    have exponents : n.log2 + 1 = 53 + unitExponent n := by
      unfold unitExponent
      omega
    rw [exponents, Nat.pow_add] at greatest
    exact greatest.le

/-- The integer of a sign and a magnitude. -/
def signed (negative : Bool) (n : Nat) : Int := if negative then -n else n

/-- The integer rounded to 53 bits. -/
def nearest (m : Int) : Int := signed (decide (m < 0)) (toNearest m.natAbs)

theorem natAbs_signed (negative : Bool) (n : Nat) : (signed negative n).natAbs = n := by
  unfold signed
  split <;> omega

theorem isExact_nearest (m : Int) : IsExact (nearest m) ↔ IsExact (toNearest m.natAbs) := by
  unfold IsExact nearest
  rw [natAbs_signed, Int.natAbs_natCast]

/-- An exact integer lies on the grid of another one's last bit, or in front of its binade. -/
theorem IsExact.grid {k : Int} (exact : IsExact k) (n : Nat) :
    (∃ j, k.natAbs = j * 2 ^ unitExponent n) ∨ 52 ≤ n.log2 ∧ k.natAbs ≤ 2 ^ n.log2 := by
  obtain ⟨c, e, kept, -, same⟩ := exact
  by_cases coarse : unitExponent n ≤ e
  · refine .inl ⟨c * 2 ^ (e - unitExponent n), ?_⟩
    rw [same, Nat.mul_assoc, ← Nat.pow_add, Nat.sub_add_cancel coarse]
  · have wide : 52 ≤ n.log2 := by
      unfold unitExponent at coarse
      omega
    refine .inr ⟨wide, ?_⟩
    have powers : 53 + e ≤ n.log2 := by
      unfold unitExponent at coarse
      omega
    exact same.trans_le ((mul_pow_lt kept).le.trans (Nat.pow_le_pow_right (by decide) powers))

/-- No exact natural is nearer. -/
theorem toNearest_le {k : Int} (exact : IsExact k) (n : Nat) :
    ((toNearest n : Int) - n).natAbs ≤ ((k.natAbs : Int) - n).natAbs := by
  have best := roundHalfEven_nearest (Nat.two_pow_pos (unitExponent n)) n
  change ∀ j, ((toNearest n : Int) - n).natAbs ≤ _ at best
  rcases exact.grid n with ⟨j, same⟩ | ⟨wide, before⟩
  · rw [same]
    exact best j
  · -- What lies in front of the binade is farther than its first power of two.
    have start := best (2 ^ 52)
    rw [pow_unitExponent wide] at start
    have least := Nat.log2_self_le (ne_zero_of_wide wide)
    omega

/-- No exact integer is nearer. -/
theorem nearest_le {k : Int} (exact : IsExact k) (m : Int) :
    (nearest m - m).natAbs ≤ (k - m).natAbs := by
  have magnitudes := toNearest_le exact m.natAbs
  unfold nearest signed
  simp only [decide_eq_true_eq]
  split <;> omega

theorem nearest_of_isExact {m : Int} (exact : IsExact m) : nearest m = m := by
  have none := nearest_le exact m
  omega

/-! ## What is infinite -/

theorem log2_lt_of_isExact {n : Nat} (exact : IsExact (toNearest n)) : n.log2 < 1024 := by
  by_cases narrow : n.log2 ≤ 52
  · omega
  · obtain ⟨c, e, kept, bounded, same⟩ := exact
    have wide : 52 ≤ n.log2 := by omega
    have least : 2 ^ n.log2 ≤ toNearest n := by
      rw [← pow_unitExponent wide]
      exact Nat.mul_le_mul_right _ (mantissa_bounds wide).1
    have powers : n.log2 < 53 + e := (Nat.pow_lt_pow_iff_right (by decide)).mp
      (least.trans_lt (same.trans_lt (mul_pow_lt kept)))
    unfold greatestExponent at bounded
    omega

/-! ## Rounding as it is done -/

theorem scaleDown_of_wide {n : Nat} (wide : 52 ≤ n.log2) :
    scaleDown n 1 (n.log2 - 52) = (n, 2 ^ unitExponent n) := by
  have unit : ((n.log2 : Int) - 52).toNat = unitExponent n := by
    unfold unitExponent
    omega
  rw [scaleDown, if_pos (by omega), unit, Nat.one_mul]
  rfl

theorem scaleDown_of_narrow {n : Nat} (narrow : n.log2 < 52) :
    scaleDown n 1 (n.log2 - 52) = (n * 2 ^ (52 - n.log2), 1) := by
  have missing : (-((n.log2 : Int) - 52)).toNat = 52 - n.log2 := by omega
  rw [scaleDown, if_neg (by omega), missing]
  rfl

theorem exponentFor_one {n : Nat} (filled : n ≠ 0) : exponentFor n 1 = n.log2 - 52 := by
  have least := Nat.log2_self_le filled
  have guess : max leastExponent ((n.log2 : Int) - (Nat.log2 1 : Nat) - 52) = n.log2 - 52 := by
    have one : Nat.log2 1 = 0 := by decide
    rw [one]
    unfold leastExponent
    omega
  unfold exponentFor
  dsimp only
  rw [guess]
  -- The natural is at least the power of two that its length tells, so the guess is right.
  refine if_neg fun ⟨less, _⟩ => absurd less (not_lt.mpr ?_)
  rcases Nat.lt_or_ge n.log2 52 with narrow | wide
  · rw [scaleDown_of_narrow narrow]
    calc 2 ^ 52 * 1 = 2 ^ n.log2 * 2 ^ (52 - n.log2) := by
          rw [Nat.mul_one, ← Nat.pow_add, Nat.add_sub_cancel' narrow.le]
      _ ≤ n * 2 ^ (52 - n.log2) := Nat.mul_le_mul_right _ least
  · rw [scaleDown_of_wide wide]
    exact (pow_unitExponent wide).trans_le least

/-- A natural of less than 53 bits, filled up with zeros. -/
theorem ofRatio_one_of_narrow {n : Nat} (negative : Bool) (filled : n ≠ 0) (narrow : n.log2 < 52) :
    ofRatio negative n 1 = .finite negative (n * 2 ^ (52 - n.log2)) (n.log2 - 52) := by
  have kept : n * 2 ^ (52 - n.log2) ≠ mantissaLimit := by
    refine Nat.ne_of_lt ?_
    calc n * 2 ^ (52 - n.log2) < 2 ^ (n.log2 + 1) * 2 ^ (52 - n.log2) :=
          Nat.mul_lt_mul_of_pos_right Nat.lt_log2_self (Nat.two_pow_pos _)
      _ = 2 ^ 53 := by rw [← Nat.pow_add]; congr 1; omega
  have finite : ¬greatestExponent < (n.log2 : Int) - 52 := by
    unfold greatestExponent
    omega
  unfold ofRatio
  dsimp only
  rw [if_neg filled, exponentFor_one filled, scaleDown_of_narrow narrow, roundHalfEven_one,
    if_neg kept]
  exact if_neg finite

/-- A natural of at least 53 bits, of which the first ones are kept. -/
theorem ofRatio_one_of_wide {n : Nat} (negative : Bool) (wide : 52 ≤ n.log2) :
    ∃ m e : Nat, 2 ^ 52 ≤ m ∧ m < mantissaLimit ∧ m * 2 ^ e = toNearest n ∧
      ofRatio negative n 1 =
        if greatestExponent < e then .infinite negative else .finite negative m e := by
  have filled := ne_zero_of_wide wide
  have unit : (n.log2 : Int) - 52 = unitExponent n := by
    unfold unitExponent
    omega
  obtain ⟨full, kept⟩ := mantissa_bounds wide
  unfold ofRatio
  dsimp only
  rw [if_neg filled, exponentFor_one filled, scaleDown_of_wide wide, unit]
  dsimp only
  by_cases carried : roundHalfEven n (2 ^ unitExponent n) = mantissaLimit
  · rw [if_pos carried]
    refine ⟨2 ^ 52, unitExponent n + 1, le_rfl, by decide, ?_, rfl⟩
    rw [toNearest, carried, pow_succ' 2 (unitExponent n)]
    exact (Nat.mul_assoc _ _ _).symm
  · rw [if_neg carried]
    exact ⟨_, _, full, Nat.lt_of_le_of_ne kept carried, rfl, rfl⟩

theorem finite?_float (negative : Bool) (m : Nat) (e : Int) :
    Numeric.finite? (.float (.finite negative m e)) = some (Place.ratio (signed negative m) e) := by
  cases negative <;> rfl

theorem finite?_infinite (negative : Bool) :
    Numeric.finite? (.float (.infinite negative)) = none := by
  cases negative <;> rfl

theorem ratio_signed (negative : Bool) (m e : Nat) :
    Place.ratio (signed negative m) e = signed negative (m * 2 ^ e) := by
  unfold Place.ratio signed
  cases negative <;> simp

/-- A natural of less than 53 bits is not changed. -/
theorem finite?_ofRatio_one_of_narrow {n : Nat} (negative : Bool) (narrow : n.log2 < 52) :
    Numeric.finite? (.float (ofRatio negative n 1)) = some (signed negative n : ℚ) := by
  by_cases zero : n = 0
  · subst zero
    cases negative <;> simp [ofRatio, Binary64.zero, finite?_float, Place.ratio, signed]
  · have filling : ((52 - n.log2 : Nat) : Int) + (n.log2 - 52) = 0 := by omega
    have power : (2 : ℚ) ^ (52 - n.log2) * 2 ^ ((n.log2 : Int) - 52) = 1 := by
      rw [← zpow_natCast, ← zpow_add₀ two_ne_zero, filling, zpow_zero]
    rw [ofRatio_one_of_narrow negative zero narrow, finite?_float]
    unfold Place.ratio signed
    cases negative <;> simp [mul_assoc, power]

theorem isExact_of_narrow {n : Nat} (narrow : n.log2 < 52) : IsExact n := by
  refine ⟨n, 0, ?_, by decide, by simp⟩
  have bits : n < 2 ^ (n.log2 + 1) := Nat.lt_log2_self
  exact bits.trans_le (Nat.pow_le_pow_right (by decide) (by omega))

/-- A natural is brought to the nearest one, if that is finite. -/
theorem finite?_ofRatio_one (n : Nat) (negative : Bool) (q : ℚ) :
    Numeric.finite? (.float (ofRatio negative n 1)) = some q ↔
      IsExact (toNearest n) ∧ q = signed negative (toNearest n) := by
  rcases Nat.lt_or_ge n.log2 52 with narrow | wide
  · rw [finite?_ofRatio_one_of_narrow negative narrow, toNearest_of_narrow narrow.le,
      Option.some.injEq, and_iff_right (isExact_of_narrow narrow), eq_comm]
  · obtain ⟨m, e, full, kept, same, rounded⟩ := ofRatio_one_of_wide negative wide
    rw [← same, isExact_iff_of_full full kept, rounded]
    by_cases beyond : greatestExponent < e
    · rw [if_pos beyond, finite?_infinite]
      exact iff_of_false (Option.some_ne_none q).symm fun finite => absurd beyond finite.1.not_gt
    · rw [if_neg beyond, finite?_float, ratio_signed, Option.some.injEq,
        and_iff_right (not_lt.mp beyond), eq_comm]

/-! ## Decimals without a fraction -/

/-- A decimal digit takes more than three bits. -/
theorem le_log2_of_lt_digitCount {n k : Nat} (many : k < Decimal.digitCount n) :
    3 * k ≤ n.log2 := by
  have filled : n ≠ 0 := by
    rintro rfl
    exact absurd many (Nat.not_lt_zero k)
  rw [Decimal.digitCount, if_neg filled] at many
  have large : 10 ^ k ≤ n := by
    rcases Nat.eq_zero_or_pos k with rfl | positive
    · exact Nat.pos_of_ne_zero filled
    · refine not_lt.mp fun less => absurd many (not_lt.mpr ?_)
      exact (Nat.length_toDigits_le_iff (by decide) positive).mpr less
  refine (Nat.le_log2 filled).mpr ?_
  calc 2 ^ (3 * k) = (2 ^ 3) ^ k := Nat.pow_mul 2 3 k
    _ ≤ 10 ^ k := Nat.pow_le_pow_left (by decide) k
    _ ≤ n := large

/-- What has more digits than the horizon allows is infinite by rounding, too. -/
theorem not_isExact_of_horizon {n : Nat} (far : decimalHorizon < Decimal.digitCount n) :
    ¬IsExact (toNearest n) := by
  intro exact
  have bits := log2_lt_of_isExact exact
  have many : 400 < Decimal.digitCount n := Int.ofNat_lt.mp far
  have digits := le_log2_of_lt_digitCount many
  omega

/-- **A natural that is read as a decimal is brought to the nearest one**, if that is finite. -/
theorem finite?_ofDecimal (n : Nat) (negative : Bool) (q : ℚ) :
    Numeric.finite? (.float (ofDecimal negative ⟨n, 0⟩)) = some q ↔
      IsExact (toNearest n) ∧ q = signed negative (toNearest n) := by
  rw [← finite?_ofRatio_one]
  unfold ofDecimal
  dsimp only
  rw [Int.add_zero]
  by_cases zero : n = 0
  · subst zero
    rfl
  · have near : ¬(n = 0 ∨ (Decimal.digitCount n : Int) < -decimalHorizon) := by
      unfold decimalHorizon
      omega
    rw [if_neg near]
    by_cases far : decimalHorizon < Decimal.digitCount n
    · rw [if_pos far, finite?_infinite, finite?_ofRatio_one]
      exact iff_of_false (Option.some_ne_none q).symm fun finite => not_isExact_of_horizon far finite.1
    · have whole : n * Nat.pow 10 (0 : Int).toNat = n := Nat.mul_one n
      rw [if_neg far, if_pos le_rfl, whole]

end RecordQuery.Binary64
