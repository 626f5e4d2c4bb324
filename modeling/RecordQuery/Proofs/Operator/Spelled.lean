import Mathlib
import RecordQuery.Operator.Evaluate
import RecordQuery.Proofs.Number.Rounding
import RecordQuery.Proofs.Text.Digits

/-!
# Integers and the texts that spell them

The text of an integer is read as a binary64 number, while the integer that it is compared with stays
exact. So an integer loosely equals its own text just if it is a binary64 number, and otherwise the
text equals one of those that are nearest to the integer (`Operator.equal_spelled`).
-/

namespace RecordQuery

/-! ## Reading the text of an integer -/

namespace Text

variable {cs : List Char}

theorem stripNumeral_of_filled (filled : ∀ c ∈ cs, isNumeralBlank c = false) :
    stripNumeral cs = cs := by
  have kept {cs : List Char} (filled : ∀ c ∈ cs, isNumeralBlank c = false) :
      cs.dropWhile isNumeralBlank = cs := by
    cases cs with
    | nil => rfl
    | cons c cs => exact List.dropWhile_cons_of_neg (by simp [filled c List.mem_cons_self])
  unfold stripNumeral
  rw [kept filled, kept fun c member => filled c (List.mem_reverse.mp member), List.reverse_reverse]

theorem dropUnderscores?_of_none (before : Option Char) (plain : '_' ∉ cs) :
    dropUnderscores? before cs = some cs := by
  induction cs generalizing before with
  | nil => rfl
  | cons c cs ih =>
    have first : c ≠ '_' := fun same => plain (same ▸ List.mem_cons_self)
    have rest := ih (some c) fun member => plain (List.mem_cons_of_mem c member)
    rw [dropUnderscores?, rest]
    · rfl
    · exact first

/-- A character of an integer's text. -/
def IsSignOrDigit (c : Char) : Prop := c = '-' ∨ c.isDigit = true

theorem exists_digitChar {c : Char} (digit : c.isDigit = true) :
    ∃ d, d < 10 ∧ c = Nat.digitChar d := by
  obtain ⟨low, high⟩ := Char.isDigit_iff_toNat.mp digit
  have char := Char.ofNat_toNat c
  change 48 ≤ c.toNat at low
  change c.toNat ≤ 57 at high
  refine ⟨c.toNat - 48, by omega, ?_⟩
  generalize c.toNat = code at low high char ⊢
  rw [← char]
  interval_cases code <;> rfl

theorem isNumeralBlank_of_isSignOrDigit {c : Char} (plain : IsSignOrDigit c) :
    isNumeralBlank c = false := by
  rcases plain with rfl | digit
  · rfl
  · obtain ⟨d, below, rfl⟩ := exists_digitChar digit
    interval_cases d <;> rfl

theorem plainDigit_of_isSignOrDigit {c : Char} (plain : IsSignOrDigit c) : plainDigit c = c := by
  rcases plain with rfl | digit
  · rfl
  · obtain ⟨d, below, rfl⟩ := exists_digitChar digit
    interval_cases d <;> rfl

theorem isDigit_toLower {c : Char} (digit : c.isDigit = true) : c.toLower.isDigit = true := by
  obtain ⟨d, below, rfl⟩ := exists_digitChar digit
  interval_cases d <;> rfl

theorem isSignOrDigit_of_mem {negative : Bool} {n : Nat} {c : Char}
    (member : c ∈ sign negative ++ Nat.toDigits 10 n) : IsSignOrDigit c := by
  rcases List.mem_append.mp member with sign | digit
  · cases negative with
    | true => exact .inl (List.mem_singleton.mp sign)
    | false => cases sign
  · exact .inr (isDigit_of_mem digit)

/-- The text of an integer is plain: nothing is stripped from it, replaced or dropped. -/
theorem dropUnderscores?_signed (negative : Bool) (n : Nat) :
    dropUnderscores? none
        ((stripNumeral (sign negative ++ Nat.toDigits 10 n)).map plainDigit) =
      some (sign negative ++ Nat.toDigits 10 n) := by
  have stripped : stripNumeral (sign negative ++ Nat.toDigits 10 n) =
      sign negative ++ Nat.toDigits 10 n :=
    stripNumeral_of_filled fun _ member =>
      isNumeralBlank_of_isSignOrDigit (isSignOrDigit_of_mem member)
  have plain : (sign negative ++ Nat.toDigits 10 n).map plainDigit =
      sign negative ++ Nat.toDigits 10 n :=
    (List.map_congr_left fun _ member =>
      plainDigit_of_isSignOrDigit (isSignOrDigit_of_mem member)).trans (List.map_id _)
  rw [stripped, plain]
  refine dropUnderscores?_of_none none fun member => ?_
  rcases isSignOrDigit_of_mem member with hyphen | digit
  · exact absurd hyphen (by decide)
  · exact absurd digit (by decide)

theorem readDecimal?_toDigits (n : Nat) : readDecimal? (Nat.toDigits 10 n) = some ⟨n, 0⟩ := by
  have whole : (Nat.toDigits 10 n).takeWhile Char.isDigit = Nat.toDigits 10 n :=
    List.takeWhile_eq_self_iff.mpr fun c => isDigit_of_mem
  have rest : (Nat.toDigits 10 n).dropWhile Char.isDigit = [] :=
    List.dropWhile_eq_nil_iff.mpr fun c => isDigit_of_mem
  have filled : (Nat.toDigits 10 n).isEmpty = false :=
    List.isEmpty_eq_false_iff.mpr Nat.toDigits_ne_nil
  unfold readDecimal?
  dsimp only
  rw [whole, rest]
  dsimp only
  rw [filled, List.append_nil, digitsValue_toDigits]
  rfl

theorem splitSign_sign (negative : Bool) (n : Nat) :
    splitSign (sign negative ++ Nat.toDigits 10 n) = (negative, Nat.toDigits 10 n) := by
  cases negative with
  | true => rfl
  | false =>
    obtain ⟨c, digits, shape⟩ := List.exists_cons_of_ne_nil (Nat.toDigits_ne_nil (n := n) (b := 10))
    obtain ⟨d, below, rfl⟩ := exists_digitChar (isDigit_of_mem (shape ▸ List.mem_cons_self))
    rw [shape]
    interval_cases d <;> rfl

/-- The text of an integer is read as the binary64 number of its sign and magnitude. -/
theorem readBinary64?_text (m : Int) :
    readBinary64? (Value.int m).text = some (.ofDecimal (decide (m < 0)) ⟨m.natAbs, 0⟩) := by
  have spelled : (Value.int m).text.toList =
      sign (decide (m < 0)) ++ Nat.toDigits 10 m.natAbs := toList_repr m
  have unnamed {c : Char} {name : List Char} (noDigit : c.isDigit = false) :
      (Nat.toDigits 10 m.natAbs).map Char.toLower ≠ c :: name := by
    intro same
    obtain ⟨d, digit, lowered⟩ := List.mem_map.mp (same ▸ List.mem_cons_self)
    rw [← lowered, isDigit_toLower (isDigit_of_mem digit)] at noDigit
    cases noDigit
  have finite : ¬((Nat.toDigits 10 m.natAbs).map Char.toLower = "inf".toList ∨
      (Nat.toDigits 10 m.natAbs).map Char.toLower = "infinity".toList) :=
    not_or.mpr ⟨unnamed rfl, unnamed rfl⟩
  have number : (Nat.toDigits 10 m.natAbs).map Char.toLower ≠ "nan".toList := unnamed rfl
  unfold readBinary64?
  rw [spelled, dropUnderscores?_signed, Option.bind_eq_bind, Option.bind_some, splitSign_sign]
  dsimp only
  rw [if_neg finite, if_neg number, readDecimal?_toDigits]
  rfl

end Text

/-! ## Equality -/

namespace Numeric

/-- An integer equals a binary64 number that has just its value. -/
theorem equals_float (n : Int) (x : Binary64) :
    (Numeric.int n).equals (.float x) = true ↔ finite? (.float x) = some (n : ℚ) := by
  have value : (Numeric.int n).place? = some (.finite n 0) := rfl
  unfold equals compare? finite?
  rw [value]
  cases place? (.float x) with
  | none => simp
  | some place =>
    have order := Place.compare_eq_cmp (.finite n 0) place
    have exact : Place.ratio n 0 = n := by simp [Place.ratio]
    cases place with
    | below => simp [Place.compare]
    | above => simp [Place.compare]
    | finite significand exponent =>
      have same : Place.compare (.finite n 0) (.finite significand exponent) = .eq ↔
          (n : ℚ) = Place.ratio significand exponent := by
        rw [order, cmp_eq_eq_iff, Place.value, Place.value, exact, WithBot.coe_inj, WithTop.coe_inj]
      simp only [beq_iff_eq, Option.some.injEq]
      exact same.trans eq_comm

end Numeric

namespace Operator

open Binary64

/-- An integer loosely equals the text of another one if it is what that one is brought to. -/
theorem looselyEquals_text (n m : Int) :
    Value.looselyEquals (.int n) (.str (Value.int m).text) = true ↔ IsExact n ∧ n = nearest m := by
  have read : Value.looselyEquals (.int n) (.str (Value.int m).text) =
      Value.equalsSpelled (.int n) (Value.int m).text := rfl
  rw [read, Value.equalsSpelled, Text.readBinary64?_text]
  dsimp only
  rw [Numeric.equals_float, finite?_ofDecimal, ← isExact_nearest, Int.cast_inj]
  exact and_congr_left fun same => by rw [same]; rfl

/-- **An integer equals its own text just if it is a binary64 number.** On either side the text of an
integer loosely equals the binary64 number that the integer is brought to, and none is nearer to it,
and inequality is the opposite. So a text equals the integer that it spells and no other one exactly
for the integers that are binary64 numbers, whatever their size. -/
theorem equal_spelled (m : Int) :
    let equal : Operator := ⟨.equal, .none⟩
    let unequal : Operator := ⟨.notEqual, .none⟩
    let spelled := Value.str (Value.int m).text
    (∀ n : Int,
      (equal.evaluate (.int n) spelled = true ↔ IsExact n ∧ n = nearest m) ∧
      equal.evaluate spelled (.int n) = equal.evaluate (.int n) spelled ∧
      unequal.evaluate (.int n) spelled = !equal.evaluate (.int n) spelled ∧
      unequal.evaluate spelled (.int n) = !equal.evaluate spelled (.int n)) ∧
    ((∀ n : Int, equal.evaluate (.int n) spelled = true ↔ n = m) ↔ IsExact m) ∧
    ∀ k, IsExact k → (nearest m - m).natAbs ≤ (k - m).natAbs := by
  intro equal unequal spelled
  have equals (n : Int) : equal.evaluate (.int n) spelled = true ↔ IsExact n ∧ n = nearest m :=
    looselyEquals_text n m
  refine ⟨fun n => ⟨equals n, rfl, rfl, rfl⟩, ⟨fun spells => ?_, fun exact n => ?_⟩, fun k exact => ?_⟩
  · exact ((equals m).mp ((spells m).mpr rfl)).1
  · rw [equals, nearest_of_isExact exact]
    exact and_iff_right_of_imp fun same => same ▸ exact
  · exact nearest_le exact m

/-- The text of an even integer beyond 2^53, and the even integer before it. -/
theorem equal_spelled_of_even :
    let equal : Operator := ⟨.equal, .none⟩
    equal.evaluate (.int 9007199254740994) (.str "9007199254740994") = true ∧
      equal.evaluate (.int 9007199254740992) (.str "9007199254740994") = false := by
  have text : (Value.int 9007199254740994).text = "9007199254740994" := by cbv
  have exact : IsExact 9007199254740994 := ⟨4503599627370497, 1, by decide, by decide, by decide⟩
  have spells := (equal_spelled 9007199254740994).2.1.mpr exact
  rw [text] at spells
  constructor
  · exact (spells _).mpr rfl
  · exact eq_false_of_ne_true fun same => absurd ((spells _).mp same) (by decide)

/-- The odd integer next to 2^53 does not equal its own text, and its even neighbour does. -/
theorem equal_spelled_misses_odd :
    let equal : Operator := ⟨.equal, .none⟩
    let spelled := Value.str (Value.int 9007199254740993).text
    equal.evaluate (.int 9007199254740993) spelled = false ∧
      equal.evaluate (.int 9007199254740992) spelled = true := by
  have brought : nearest 9007199254740993 = 9007199254740992 := by decide +kernel
  have exact : IsExact 9007199254740992 := ⟨4503599627370496, 1, by decide, by decide, by decide⟩
  constructor
  · refine eq_false_of_ne_true fun same => ?_
    have own := ((looselyEquals_text _ _).mp same).2
    rw [brought] at own
    exact absurd own (by decide)
  · exact (looselyEquals_text _ _).mpr ⟨exact, brought.symm⟩

end Operator

end RecordQuery
