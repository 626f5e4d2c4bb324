import Mathlib
import RecordQuery.Proofs.Itq.Escaping
import RecordQuery.Proofs.Itq.Failure

/-!
# Writing tokens

Names are written between marks, texts escaped between quotes, integers in decimal, keywords in lower
case. With a blank between any two of them, the tokens of the line are those that were written
(`Tokenization.ofText_line`).
-/

namespace RecordQuery.Itq

/-! ## Tokens as they are written -/

namespace Keyword

/-- The word of a keyword. -/
def word (k : Keyword) : String :=
  ((words.find? fun entry => entry.2 = k).map (·.1)).getD ""

/-- The token of a keyword. -/
def token (k : Keyword) : Token := .keyword k k.word

theorem ofWord?_word (k : Keyword) : ofWord? k.word = some k := by cases k <;> rfl

theorem isWord_word (k : Keyword) : IsWord k.word.toList := by
  cases k <;> decide

end Keyword

/-- A name that can stand between marks. -/
structure IsName (name : String) : Prop where
  filled : name ≠ ""
  unmarked : ∀ c ∈ name.toList, c ≠ Piece.nameMark

instance : DecidablePred IsName := fun name =>
  decidable_of_iff (name ≠ "" ∧ name.toList.all (· != Piece.nameMark) = true)
    ⟨fun ⟨filled, unmarked⟩ =>
        ⟨filled, fun c member => bne_iff_ne.mp (List.all_eq_true.mp unmarked c member)⟩,
      fun ⟨filled, unmarked⟩ =>
        ⟨filled, List.all_eq_true.mpr fun c member => bne_iff_ne.mpr (unmarked c member)⟩⟩

namespace Token

/-- How a token is written. -/
def written : Token → List Char
  | .identifier name => Piece.nameMark :: (name.toList ++ [Piece.nameMark])
  | .string s => literal (StringLiteral.escaped s.text.toList)
  | t => t.value.text.toList

/-- A token that is read back as it was written: no float, and no keyword of another spelling. -/
inductive IsWritable : Token → Prop where
  | identifier {name : String} (valid : IsName name) : IsWritable (.identifier name)
  | integer (n : Int) : IsWritable (.integer n)
  | string (s : String) : IsWritable (.string s)
  | keyword (k : Keyword) : IsWritable k.token
  | symbol (s : Symbol) : IsWritable (.symbol s)

/-- The line of some tokens, with blanks between them. -/
def line (ts : List Token) : List Char := [' '].intercalate (ts.map written)

theorem line_cons_cons (t u : Token) (ts : List Token) :
    line (t :: u :: ts) = t.written ++ ' ' :: line (u :: ts) := by
  unfold line
  rw [List.map_cons, List.map_cons, List.intercalate_cons_cons, List.append_assoc]
  rfl

end Token

/-! ## Digits -/

theorem isDigits_toDigits (n : Nat) : IsDigits (Nat.toDigits 10 n) := by
  refine ⟨Nat.toDigits_ne_nil, fun c member => ?_⟩
  rw [Text.isDigit, Text.digitValue?_of_isDigit (Text.isDigit_of_mem member)]
  rfl

namespace Piece

/-! ## Written tokens are read back -/

variable {after : List Char}

/-- Where a line goes on behind a token, it goes on with a blank. -/
theorem fraction_of_blank (ends : ∀ c ∈ after.head?, c = ' ') : fraction after = [] := by
  cases after with
  | nil => rfl
  | cons c after =>
    cases ends c rfl
    rfl

theorem blank_fails {p : Char → Bool} (blank : p ' ' = false) (ends : ∀ c ∈ after.head?, c = ' ') :
    ∀ c ∈ after.head?, p c = false := fun c first => (congrArg p (ends c first)).trans blank

theorem number?_toDigits (n : Int) (ends : ∀ c ∈ after.head?, c = ' ') :
    number? (decide (n < 0)) (Nat.toDigits 10 n.natAbs ++ after) =
      some (.integer n, (Nat.toDigits 10 n.natAbs).length) := by
  rw [number?_of_digits _ (isDigits_toDigits _) (blank_fails (by decide) ends),
    fraction_of_blank ends]
  have value : numberToken (decide (n < 0)) (Nat.toDigits 10 n.natAbs) [] = .integer n := by
    unfold numberToken
    rw [Text.digitsValue_toDigits]
    by_cases negative : n < 0
    · have size : -(n.natAbs : Int) = n := by omega
      rw [decide_eq_true negative, if_pos rfl, size]
      rfl
    · have size : (n.natAbs : Int) = n := by omega
      rw [decide_eq_false negative, if_neg Bool.false_ne_true, size]
      rfl
  rw [value]
  rfl

variable [CharacterNames]

theorem atFront_symbol (s : Symbol) (ends : ∀ c ∈ after.head?, c = ' ') :
    ∃ c more, s.spelling.toList = c :: more ∧
      atFront c (more ++ after) = .token (.symbol s) more.length := by
  have longest : Symbol.atFront? (s.spelling.toList ++ after) = some s := by
    cases after with
    | nil => cases s <;> rfl
    | cons c after =>
      cases ends c rfl
      cases s <;> rfl
  have symbol : ofSymbol (s.spelling.toList ++ after) =
      .token (.symbol s) (s.spelling.length - 1) := by
    unfold ofSymbol
    rw [longest]
  cases s <;> exact ⟨_, _, rfl, symbol⟩

theorem atFront_keyword (k : Keyword) (ends : ∀ c ∈ after.head?, c = ' ') :
    ∃ c more, k.word.toList = c :: more ∧
      atFront c (more ++ after) = .token k.token more.length := by
  have shape := k.isWord_word
  generalize spelled : k.word.toList = word at shape
  cases shape with
  | @mk c more begins continues =>
    refine ⟨c, more, rfl, ?_⟩
    have whole : String.ofList (c :: more) = k.word := by rw [← spelled, String.ofList_toList]
    rw [atFront_of_beginsName begins]
    unfold ofWord
    dsimp only
    rw [takeWhile_append_of_ends continues (blank_fails (by decide) ends), whole, k.ofWord?_word]
    rfl

theorem atFront_integer (n : Int) (ends : ∀ c ∈ after.head?, c = ' ') :
    ∃ c more, (Token.integer n).written = c :: more ∧
      atFront c (more ++ after) = .token (.integer n) more.length := by
  have read := number?_toDigits n ends
  have digits := isDigits_toDigits n.natAbs
  have written : (Token.integer n).written =
      Text.sign (decide (n < 0)) ++ Nat.toDigits 10 n.natAbs := Text.toList_repr n
  rw [written]
  generalize Nat.toDigits 10 n.natAbs = whole at read digits ⊢
  generalize decide (n < 0) = negative at read ⊢
  cases negative with
  | true =>
    refine ⟨'-', whole, rfl, ?_⟩
    have hyphen : atFront '-' (whole ++ after) = ofHyphen (whole ++ after) := rfl
    unfold ofHyphen at hyphen
    rw [read] at hyphen
    exact hyphen
  | false =>
    obtain ⟨c, more, rfl⟩ := List.exists_cons_of_ne_nil digits.filled
    exact ⟨c, more, rfl, atFront_of_isDigit (digits.digits c List.mem_cons_self) read⟩

/-- A written token is read back from the front of a line. -/
theorem atFront_written {t : Token} (writable : t.IsWritable) (ends : ∀ c ∈ after.head?, c = ' ') :
    ∃ c more, t.written = c :: more ∧ atFront c (more ++ after) = .token t more.length := by
  cases writable with
  | @identifier name valid =>
    refine ⟨nameMark, _, rfl, ?_⟩
    have filled : name.toList ≠ [] := fun blank => valid.filled (String.toList_eq_nil_iff.mp blank)
    have read := ofMarkedName_append filled valid.unmarked after
    rw [String.ofList_toList] at read
    rw [List.append_assoc, List.length_append]
    exact read
  | integer n => exact atFront_integer n ends
  | string s =>
    refine ⟨'"', _, rfl, ?_⟩
    rw [CodeText.text_ofString, List.append_assoc, List.length_append]
    exact atFront_escaped s after
  | keyword k => exact atFront_keyword k ends
  | symbol s => exact atFront_symbol s ends

end Piece

/-! ## Lines -/

variable [CharacterNames]

/-- A line is scanned to its end, token by token. -/
theorem Scans.line {ts : List Token} (writable : ∀ t ∈ ts, t.IsWritable) {text before : List Char}
    {tokens : List (Token × Nat)} (scans : Scans text before tokens (Token.line ts)) :
    ∃ before later, Scans text before (tokens ++ later) [] ∧ tokensOf later = ts := by
  induction ts generalizing before tokens with
  | nil => exact ⟨before, [], by rwa [List.append_nil], rfl⟩
  | cons t ts ih =>
    rw [List.forall_mem_cons] at writable
    cases ts with
    | nil =>
      have ends : ∀ c ∈ ([] : List Char).head?, c = ' ' := fun _ first => nomatch first
      obtain ⟨c, more, spelled, front⟩ := Piece.atFront_written writable.1 ends
      have whole : Token.line [t] = c :: more := by rw [← spelled]; exact List.intercalate_singleton
      rw [whole] at scans
      rw [List.append_nil] at front
      have taken := scans.token front
      rw [List.drop_length] at taken
      exact ⟨_, _, taken, rfl⟩
    | cons u ts =>
      have ends : ∀ c ∈ (' ' :: Token.line (u :: ts)).head?, c = ' ' := by
        rintro c ⟨⟩
        rfl
      obtain ⟨c, more, spelled, front⟩ := Piece.atFront_written writable.1 ends
      rw [Token.line_cons_cons, spelled, List.cons_append] at scans
      have taken := scans.token front
      rw [List.drop_left] at taken
      have gap : Piece.atFront ' ' (Token.line (u :: ts)) = .gap 0 0 := rfl
      obtain ⟨before', later, whole, same⟩ := ih writable.2 (taken.gap gap)
      refine ⟨before', (t, before.length) :: later, ?_, ?_⟩
      · rw [List.append_cons]
        exact whole
      · rw [← same]
        rfl

/-- The tokens of a line are those it was written from. -/
theorem Tokenization.ofText_line {ts : List Token} (writable : ∀ t ∈ ts, t.IsWritable) :
    ∃ placed, ofText (String.ofList (Token.line ts)) = ⟨placed, none⟩ ∧
      placed.map (·.token) = ts := by
  have whole : Scans (String.ofList (Token.line ts)).toList [] [] (Token.line ts) := by
    rw [String.toList_ofList]
    exact .start
  obtain ⟨before, tokens, scans, same⟩ := whole.line writable
  obtain ⟨placed, read, placed_eq⟩ := Statement.tokenization_of_ends scans .all
  exact ⟨placed, read, (map_token placed_eq).trans same⟩

end RecordQuery.Itq
