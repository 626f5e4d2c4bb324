import Mathlib
import RecordQuery.Proofs.Itq.Lexemes

/-!
# Escaped text

A text goes between the quotes of a literal with a backslash before each of its quotes and
backslashes (`StringLiteral.escaped`). The literal then stands for the text, whatever characters the
text has (`StringLiteral.decode_escaped`): those beyond code point 255 are read as hexadecimal escapes,
and these give the character back.
-/

namespace RecordQuery.Text

theorem hexValue?_digitChar : ∀ d < 16, hexValue? (Nat.digitChar d) = some d := by decide

theorem length_hexDigits (width n : Nat) : (hexDigits width n).length = width := by
  induction width generalizing n with
  | zero => rfl
  | succ width ih => rw [hexDigits, List.length_append, ih, List.length_singleton]

end RecordQuery.Text

namespace RecordQuery

/-- The code point of a character is that of no other one, and of no half of a surrogate pair. -/
theorem CodePoint.char?_ofChar (c : Char) : (CodePoint.ofChar c).char? = some c := by
  have isChar : (CodePoint.ofChar c).number.isValidChar := c.valid
  rw [CodePoint.char?, if_pos isChar]
  exact congrArg some (Char.ofNat_toNat c)

/-- A text of characters is kept as it is. -/
theorem CodeText.text_ofString (s : String) : (CodeText.ofString s).text = s := by
  have same : (fun c => (CodePoint.ofChar c).char?.getD '\uFFFD') = id := by
    funext c
    rw [CodePoint.char?_ofChar]
    rfl
  rw [CodeText.text, CodeText.ofString, List.map_map, Function.comp_def, same, List.map_id,
    String.ofList_toList]

end RecordQuery

namespace RecordQuery.Itq.StringLiteral

open Text

/-! ## Hexadecimal digits -/

theorem numberOf_concat (base : Nat) (digits : List Nat) (d : Nat) :
    numberOf base (digits ++ [d]) = base * numberOf base digits + d := by
  rw [numberOf, List.foldl_append]
  rfl

/-- The digits of a number have values, and these spell the number. -/
theorem exists_values_hexDigits (width n : Nat) : ∃ values : List Nat,
    (hexDigits width n).map hexValue? = values.map some ∧ numberOf 16 values = n % 16 ^ width := by
  induction width generalizing n with
  | zero => exact ⟨[], rfl, by rw [Nat.pow_zero, Nat.mod_one]; rfl⟩
  | succ width ih =>
    obtain ⟨values, values_eq, number⟩ := ih (n / 16)
    refine ⟨values ++ [n % 16], ?_, ?_⟩
    · rw [hexDigits, List.map_append, values_eq, List.map_append, List.map_singleton,
        hexValue?_digitChar _ (Nat.mod_lt n (by decide)), List.map_singleton]
    · rw [numberOf_concat, number, Nat.pow_succ, Nat.mul_comm (16 ^ width), Nat.mod_mul]
      omega

theorem hexEscape_hexDigits {count : Nat} {code : CodePoint} (fits : code.number < 16 ^ count)
    (fault : EscapeFault) (rest : List Char) :
    hexEscape count fault (hexDigits count code.number ++ rest) = .ok ([code], count + 1) := by
  obtain ⟨values, values_eq, number⟩ := exists_values_hexDigits count code.number
  rw [Nat.mod_eq_of_lt fits] at number
  have length : values.length = count := by
    rw [← List.length_map some, ← values_eq, List.length_map, length_hexDigits]
  have all : (values.map some).takeWhile Option.isSome = values.map some :=
    List.takeWhile_eq_self_iff.mpr (by simp)
  unfold hexEscape
  dsimp only
  rw [List.take_left' (length_hexDigits count code.number), values_eq, all, List.length_map, length,
    if_neg (Nat.lt_irrefl count), List.filterMap_map, Function.id_comp, List.filterMap_some]
  simp only [number, code.bounded, dite_true]

/-! ## Escaping -/

/-- How a character is written between the quotes of a literal. -/
def escapedChar (c : Char) : List Char := if c = '\\' ∨ c = '"' then ['\\', c] else [c]

/-- How a text is written between the quotes of a literal. -/
def escaped (cs : List Char) : List Char := cs.flatMap escapedChar

theorem isLiteralBody_escaped (cs : List Char) : IsLiteralBody (escaped cs) := by
  induction cs with
  | nil => exact .nil
  | cons c cs ih =>
    rw [escaped, List.flatMap_cons, escapedChar]
    split
    · rename_i marked
      have inLine : c ≠ '\n' := by rcases marked with rfl | rfl <;> decide
      exact .escape inLine ih
    · rename_i plain
      rw [not_or] at plain
      exact .plain plain.2 plain.1 ih

/-! ## Units -/

theorem units_append (front after : List Char) : units (front ++ after) = units front ++ units after :=
  List.flatMap_append

variable [CharacterNames]

theorem decodeUnits_skip (front after : List Char) (position : Nat) :
    decodeUnits front.length position (front ++ after) =
      decodeUnits 0 (position + front.length) after := by
  induction front generalizing position with
  | nil => rfl
  | cons c front ih =>
    have step : decodeUnits (c :: front).length position (c :: front ++ after) =
        decodeUnits front.length (position + 1) (front ++ after) := rfl
    rw [step, ih, List.length_cons, Nat.add_assoc, Nat.add_comm 1]

theorem decodeUnits_backslash (position : Nat) (rest : List Char) :
    decodeUnits 0 position ('\\' :: rest) = match escape rest with
      | .error (fault, length) => .error ⟨position, length + 1, fault⟩
      | .ok (cs, length) => (decodeUnits length (position + 1) rest).map (cs ++ ·) := rfl

/-- The units at the front stand for some code points, wherever they are. -/
def StandFor (front : List Char) (cs : List CodePoint) : Prop :=
  ∀ position after, decodeUnits 0 position (front ++ after) =
    (decodeUnits 0 (position + front.length) after).map (cs ++ ·)

theorem standFor_escape {front : List Char} {cs : List CodePoint}
    (known : ∀ after, escape (front ++ after) = .ok (cs, front.length)) :
    StandFor ('\\' :: front) cs := by
  intro position after
  rw [List.cons_append, decodeUnits_backslash, known after]
  dsimp only
  rw [decodeUnits_skip, List.length_cons, Nat.add_assoc, Nat.add_comm 1]

theorem standFor_plain {c : Char} (plain : c ≠ '\\') : StandFor [c] [.ofChar c] := by
  intro position after
  rw [List.singleton_append, decodeUnits]
  exact if_neg plain

theorem StandFor.append {front front' : List Char} {cs cs' : List CodePoint}
    (first : StandFor front cs) (later : StandFor front' cs') :
    StandFor (front ++ front') (cs ++ cs') := by
  intro position after
  rw [List.append_assoc, first, later, List.length_append, Nat.add_assoc]
  cases decodeUnits 0 (position + (front.length + front'.length)) after with
  | error _ => rfl
  | ok more => exact congrArg Except.ok (List.append_assoc cs cs' more).symm

theorem standFor_codeEscape {c : Char} (wide : 0xFF < c.toNat) :
    StandFor (codeEscape c.toNat) [.ofChar c] := by
  unfold codeEscape
  rw [if_neg (Nat.not_le.mpr wide)]
  split
  · rename_i short
    refine standFor_escape fun after => ?_
    have fits : (CodePoint.ofChar c).number < 16 ^ 4 := Nat.lt_succ_of_le short
    rw [List.length_cons, length_hexDigits]
    exact hexEscape_hexDigits fits .shortUnicode after
  · refine standFor_escape fun after => ?_
    have fits : (CodePoint.ofChar c).number < 16 ^ 8 :=
      Nat.lt_trans (CodePoint.ofChar c).bounded (by decide)
    rw [List.length_cons, length_hexDigits]
    exact hexEscape_hexDigits fits .shortLongUnicode after

/-- A character that is no backslash stands for itself. -/
theorem standFor_units_singleton {c : Char} (plain : c ≠ '\\') : StandFor (units [c]) [.ofChar c] := by
  unfold units
  rw [List.flatMap_singleton]
  split
  · exact standFor_plain plain
  · exact standFor_codeEscape (Nat.lt_of_not_le ‹_›)

/-! ## Escaped text -/

theorem standFor_escapedChar (c : Char) : StandFor (units (escapedChar c)) [.ofChar c] := by
  unfold escapedChar
  split
  · rename_i marked
    rcases marked with rfl | rfl
    · exact standFor_escape fun _ => rfl
    · exact standFor_escape fun _ => rfl
  · rename_i plain
    exact standFor_units_singleton (not_or.mp plain).1

theorem standFor_escaped (cs : List Char) :
    StandFor (units (escaped cs)) (cs.map CodePoint.ofChar) := by
  induction cs with
  | nil => exact fun _ _ => (congrFun Except.map_id _).symm
  | cons c cs ih =>
    rw [escaped, List.flatMap_cons, units_append]
    exact (standFor_escapedChar c).append ih

/-- A literal stands for the text that was escaped into it. -/
theorem decode_escaped (s : String) : decode (escaped s.toList) = .ok s := by
  have read := standFor_escaped s.toList 0 []
  rw [List.append_nil] at read
  rw [decode, read]
  exact congrArg (Except.ok ∘ CodeText.mk) (List.append_nil _)

end RecordQuery.Itq.StringLiteral

namespace RecordQuery.Itq.Piece

/-- The lexer takes the literal of an escaped text up to its closing quote, whatever is behind. -/
theorem atFront_escaped [CharacterNames] (s : String) (after : List Char) :
    atFront '"' (StringLiteral.escaped s.toList ++ '"' :: after) =
      .token (.string s) ((StringLiteral.escaped s.toList).length + 1) := by
  rw [atFront_quote, ofString_literal (StringLiteral.isLiteralBody_escaped s.toList),
    StringLiteral.decode_escaped]

end RecordQuery.Itq.Piece
