import Mathlib
import RecordQuery.Proofs.Itq.Lexemes
import RecordQuery.Proofs.Itq.Reading.Viable

/-!
# Why a text is no statement

A text is scanned from left to right (`Scans`), up to its end or to the first place where no token can
be read (`Ends`). The tokens are viable as long as some statement begins with them. A text that fails
does so at the leftmost problem, be it one of characters, of escapes or of grammar, and rules for the
conditions matter only to a text that has no other (`Statement.ofText_eq_error_iff`).
-/

namespace RecordQuery.Itq

open Grammar

/-! ## The token to blame -/

theorem IsStuck.left_of_viable {ts rest : List Token} (stuck : IsStuck ts rest)
    (viable : IsViable StatementTokens ts) : rest = [] :=
  List.length_eq_zero_iff.mp
    (Nat.le_zero.mp (stuck.length_le (List.append_nil ts).symm viable))

namespace Statement

theorem blame_end (tokenization : Tokenization) :
    blame tokenization 0 = tokenization.failure?.getD .unexpectedEnd := by
  unfold blame
  rw [Nat.sub_zero, List.drop_length]

theorem blame_token (before later : List PlacedToken) (placed : PlacedToken)
    (failure? : Option StatementError) :
    blame ⟨before ++ placed :: later, failure?⟩ (placed :: later).length =
      .unexpectedToken placed.token placed.position := by
  unfold blame
  have place : (before ++ placed :: later).length - (placed :: later).length = before.length := by
    rw [List.length_append, Nat.add_sub_cancel]
  dsimp only
  rw [place, List.drop_left]

end Statement

/-- The tokens alone. -/
def tokensOf (tokens : List (Token × Nat)) : List Token := tokens.map (·.1)

theorem map_token {placed : List PlacedToken} {tokens : List (Token × Nat)}
    (same : placed.map (fun placed => (placed.token, placed.position)) = tokens) :
    placed.map (·.token) = tokensOf tokens := by
  rw [← same, tokensOf, List.map_map]
  rfl

/-! ## Scanning -/

section

variable [CharacterNames]

/-- Scanning the text up to some point gives tokens, each with the position where it begins; told are
the characters before and behind the point. -/
inductive Scans (text : List Char) : List Char → List (Token × Nat) → List Char → Prop where
  | start : Scans text [] [] text
  | gap {before rest : List Char} {tokens : List (Token × Nat)} {c : Char} {more lineFeeds : Nat}
      (scans : Scans text before tokens (c :: rest))
      (front : Piece.atFront c rest = .gap more lineFeeds) :
      Scans text (before ++ c :: rest.take more) tokens (rest.drop more)
  | token {before rest : List Char} {tokens : List (Token × Nat)} {c : Char} {t : Token} {more : Nat}
      (scans : Scans text before tokens (c :: rest))
      (front : Piece.atFront c rest = .token t more) :
      Scans text (before ++ c :: rest.take more) (tokens ++ [(t, before.length)]) (rest.drop more)

/-- The scan cannot go on at a position: the text is at its end, or no token can be read there. -/
inductive Ends (position : Nat) : List Char → Option StatementError → Prop where
  | all : Ends position [] none
  | illegal {c : Char} {rest : List Char} (front : Piece.atFront c rest = .illegal) :
      Ends position (c :: rest) (some (.illegalCharacter c position))
  | badString {c : Char} {rest : List Char} {fault : StringLiteral.BadEscape}
      (front : Piece.atFront c rest = .badString fault) :
      Ends position (c :: rest) (some (.badEscape fault))

variable {text before rest : List Char} {tokens : List (Token × Nat)}

/-- What was scanned stays when the scan goes on. -/
theorem Scans.of_append {front later : List (Token × Nat)}
    (scans : Scans text before (front ++ later) rest) :
    ∃ before rest, Scans text before front rest := by
  generalize all : front ++ later = tokens at scans
  induction scans generalizing later with
  | start =>
    rw [(List.append_eq_nil_iff.mp all).1]
    exact ⟨_, _, .start⟩
  | gap _ _ ih => exact ih all
  | token scans read ih =>
    rcases List.eq_nil_or_concat later with rfl | ⟨others, last, rfl⟩
    · rw [List.append_nil] at all
      rw [all]
      exact ⟨_, _, .token scans read⟩
    · rw [List.concat_eq_append, ← List.append_assoc] at all
      exact ih (List.append_inj' all rfl).1

/-- Every scan can be taken to where it cannot go on. -/
theorem Scans.exists_end (scans : Scans text before tokens rest) :
    ∃ before tokens rest failure?, Scans text before tokens rest ∧
      Ends before.length rest failure? := by
  induction size : rest.length using Nat.strong_induction_on generalizing before tokens rest with
  | _ n ih =>
    cases rest with
    | nil => exact ⟨before, tokens, [], none, scans, .all⟩
    | cons c rest =>
      have shorter (more : Nat) : (rest.drop more).length < n := by
        rw [← size, List.length_drop, List.length_cons]
        omega
      cases front : Piece.atFront c rest with
      | gap more lineFeeds => exact ih _ (shorter more) (.gap scans front) rfl
      | token t more => exact ih _ (shorter more) (.token scans front) rfl
      | illegal => exact ⟨before, tokens, _, _, scans, .illegal front⟩
      | badString fault => exact ⟨before, tokens, _, _, scans, .badString front⟩

namespace Tokenization

/-- The tokens of a text behind others that were read before it. -/
def behind (placed : List PlacedToken) (later : Tokenization) : Tokenization :=
  ⟨placed ++ later.tokens, later.failure?⟩

theorem ofRest_skip (skip position line : Nat) (cs : List Char) : ofRest skip position line cs =
    ofRest 0 (position + (cs.take skip).length) line (cs.drop skip) := by
  induction skip generalizing position cs with
  | zero => simp
  | succ skip ih =>
    cases cs with
    | nil => rfl
    | cons c cs =>
      have longer : position + 1 + (cs.take skip).length =
          position + ((c :: cs).take (skip + 1)).length := by
        rw [List.take_succ_cons, List.length_cons]
        omega
      have step : ofRest (skip + 1) position line (c :: cs) = ofRest skip (position + 1) line cs :=
        rfl
      rw [step, ih, longer]
      rfl

theorem ofRest_zero_cons (position line : Nat) (c : Char) (rest : List Char) :
    ofRest 0 position line (c :: rest) = match Piece.atFront c rest with
    | .gap more lineFeeds => ofRest more (position + 1) (line + lineFeeds) rest
    | .token t more => (ofRest more (position + 1) line rest).behind [⟨t, line, position⟩]
    | .illegal => ⟨[], some (.illegalCharacter c position)⟩
    | .badString fault => ⟨[], some (.badEscape fault)⟩ := rfl

theorem ofRest_ends {position : Nat} {failure? : Option StatementError}
    (ends : Ends position rest failure?) (line : Nat) :
    ofRest 0 position line rest = ⟨[], failure?⟩ := by
  cases ends with
  | all => rfl
  | illegal front => rw [ofRest_zero_cons, front]
  | badString front => rw [ofRest_zero_cons, front]

/-- Wherever the scan of a text is, its tokens are those scanned and those of what is left. -/
theorem ofRest_scans (scans : Scans text before tokens rest) : ∃ placed line,
    ofRest 0 0 1 text = (ofRest 0 before.length line rest).behind placed ∧
      placed.map (fun placed => (placed.token, placed.position)) = tokens := by
  induction scans with
  | start => exact ⟨[], 1, rfl, rfl⟩
  | @gap before rest tokens c more lineFeeds scans front ih =>
    obtain ⟨placed, line, read, same⟩ := ih
    refine ⟨placed, line + lineFeeds, ?_, same⟩
    have step : ofRest 0 before.length line (c :: rest) =
        ofRest more (before.length + 1) (line + lineFeeds) rest := by
      rw [ofRest_zero_cons, front]
    rw [read, step, ofRest_skip, List.length_append, List.length_cons, Nat.add_assoc,
      Nat.add_comm 1]
  | @token before rest tokens c t more scans front ih =>
    obtain ⟨placed, line, read, same⟩ := ih
    refine ⟨placed ++ [⟨t, line, before.length⟩], line, ?_, ?_⟩
    · have step : ofRest 0 before.length line (c :: rest) =
          (ofRest more (before.length + 1) line rest).behind [⟨t, line, before.length⟩] := by
        rw [ofRest_zero_cons, front]
      rw [read, step, ofRest_skip, List.length_append, List.length_cons, Nat.add_assoc,
        Nat.add_comm 1]
      simp [behind]
    · rw [List.map_append, same]
      rfl

end Tokenization

/-! ## The leftmost problem -/

/-- The leftmost problem of a text. Left of it all tokens together begin some statement. -/
inductive IsLeftmostProblem (text : String) : StatementError → Prop where
  /-- A character at which no gap, no token and no string literal begins. -/
  | character {before rest : List Char} {tokens : List (Token × Nat)} {c : Char}
      (scans : Scans text.toList before tokens (c :: rest))
      (viable : IsViable StatementTokens (tokensOf tokens))
      (nothing : ∀ lexeme, IsLexeme lexeme → ¬ lexeme <+: c :: rest) :
      IsLeftmostProblem text (.illegalCharacter c before.length)
  /-- A string literal with a malformed escape. -/
  | escape {before body after : List Char} {tokens : List (Token × Nat)}
      {fault : StringLiteral.BadEscape}
      (scans : Scans text.toList before tokens (literal body ++ after))
      (viable : IsViable StatementTokens (tokensOf tokens)) (closed : IsLiteralBody body)
      (malformed : StringLiteral.decode body = .error fault) :
      IsLeftmostProblem text (.badEscape fault)
  /-- A token with which the tokens no longer begin any statement. -/
  | token {before rest : List Char} {tokens : List (Token × Nat)} {t : Token} {position : Nat}
      (scans : Scans text.toList before (tokens ++ [(t, position)]) rest)
      (viable : IsViable StatementTokens (tokensOf tokens))
      (stuck : ¬ IsViable StatementTokens (tokensOf tokens ++ [t])) :
      IsLeftmostProblem text (.unexpectedToken t position)
  /-- The end of the text, if the tokens begin a statement and are none. -/
  | ending {before : List Char} {tokens : List (Token × Nat)}
      (scans : Scans text.toList before tokens [])
      (viable : IsViable StatementTokens (tokensOf tokens))
      (unfinished : ¬ StatementTokens (tokensOf tokens)) : IsLeftmostProblem text .unexpectedEnd
  /-- A rule for conditions that a whole statement breaks. -/
  | conditions {before : List Char} {tokens : List (Token × Nat)} {s : Statement}
      {e : StatementError} (scans : Scans text.toList before tokens [])
      (phrase : IsStatement (tokensOf tokens) s) (refused : Condition.check s.conditions = .error e) :
      IsLeftmostProblem text e

namespace Statement

theorem ofText_of_stuck {text : String} {placed : List PlacedToken} {rest : List Token}
    {failure? : Option StatementError} (read : Tokenization.ofText text = ⟨placed, failure?⟩)
    (stuck : IsStuck (placed.map (·.token)) rest) :
    ofText text = .error (blame ⟨placed, failure?⟩ rest.length) := by
  unfold ofText
  dsimp only
  rw [read, ofTokens_eq_error.mpr stuck]

theorem ofText_of_phrase {text : String} {placed : List PlacedToken} {s : Statement}
    {failure? : Option StatementError} (read : Tokenization.ofText text = ⟨placed, failure?⟩)
    (phrase : IsStatement (placed.map (·.token)) s) :
    ofText text = match failure? with
      | some e => .error e
      | none => (Condition.check s.conditions).map fun _ => s := by
  unfold ofText
  dsimp only
  rewrite [read, ofTokens_of_isStatement phrase]
  rfl

/-- The tokens of a text that was scanned to where the scan cannot go on. -/
theorem tokenization_of_ends {text : String} {before rest : List Char}
    {tokens : List (Token × Nat)} {failure? : Option StatementError}
    (scans : Scans text.toList before tokens rest) (ends : Ends before.length rest failure?) :
    ∃ placed, Tokenization.ofText text = ⟨placed, failure?⟩ ∧
      placed.map (fun placed => (placed.token, placed.position)) = tokens := by
  obtain ⟨placed, line, read, same⟩ := Tokenization.ofRest_scans scans
  rw [Tokenization.ofRest_ends ends] at read
  refine ⟨placed, read.trans ?_, same⟩
  rw [Tokenization.behind, List.append_nil]

/-- Where the scan cannot go on and every token can stand, what stopped the scan is the error. -/
theorem ofText_of_ends {text : String} {before rest : List Char} {tokens : List (Token × Nat)}
    {e : StatementError} (scans : Scans text.toList before tokens rest)
    (ends : Ends before.length rest (some e))
    (viable : IsViable StatementTokens (tokensOf tokens)) : ofText text = .error e := by
  obtain ⟨placed, read, same⟩ := tokenization_of_ends scans ends
  rw [← map_token same] at viable
  cases told : ofTokens (placed.map (·.token)) with
  | ok s =>
    rw [ofText_of_phrase read (isStatement_of_ofTokens told)]
  | error left =>
    have stuck := ofTokens_eq_error.mp told
    rw [ofText_of_stuck read stuck, stuck.left_of_viable viable]
    exact congrArg Except.error (blame_end _)

theorem ofText_of_token {text : String} {before rest : List Char} {tokens : List (Token × Nat)}
    {t : Token} {position : Nat}
    (scans : Scans text.toList before (tokens ++ [(t, position)]) rest)
    (viable : IsViable StatementTokens (tokensOf tokens))
    (stuck : ¬ IsViable StatementTokens (tokensOf tokens ++ [t])) :
    ofText text = .error (.unexpectedToken t position) := by
  obtain ⟨placed, line, read, same⟩ := Tokenization.ofRest_scans scans
  obtain ⟨front, last, rfl, sameFront, sameLast⟩ := List.map_eq_append_iff.mp same
  obtain ⟨placed, rfl, sameToken⟩ := List.map_eq_singleton_iff.mp sameLast
  cases sameToken
  generalize Tokenization.ofRest 0 before.length line rest = later at read
  have text_eq : Tokenization.ofText text = ⟨front ++ placed :: later.tokens, later.failure?⟩ := by
    refine Eq.trans read ?_
    rw [Tokenization.behind, List.append_assoc, List.singleton_append]
  rw [← map_token sameFront] at viable stuck
  have left : IsStuck ((front ++ placed :: later.tokens).map (·.token))
      ((placed :: later.tokens).map (·.token)) := by
    rw [List.map_append]
    exact .token viable stuck
  rw [ofText_of_stuck text_eq left, List.length_map, blame_token]

/-- What stopped the scan is the leftmost problem if no token before it is one. -/
theorem isLeftmostProblem_of_ends {text : String} {before rest : List Char}
    {tokens : List (Token × Nat)} {e : StatementError}
    (scans : Scans text.toList before tokens rest) (ends : Ends before.length rest (some e))
    (viable : IsViable StatementTokens (tokensOf tokens)) : IsLeftmostProblem text e := by
  cases ends with
  | illegal front => exact .character scans viable (Piece.illegal_iff.mp front)
  | badString front =>
    obtain ⟨body, after, closed, split, malformed⟩ := Piece.badString_iff.mp front
    rw [split] at scans
    exact .escape scans viable closed malformed

/-- A whole text that is a phrase breaks a rule for conditions if it fails. -/
theorem isLeftmostProblem_of_phrase {text : String} {before : List Char}
    {tokens : List (Token × Nat)} {s : Statement} {e : StatementError}
    (scans : Scans text.toList before tokens []) (phrase : IsStatement (tokensOf tokens) s)
    (failed : (Condition.check s.conditions).map (fun _ => s) = .error e) :
    IsLeftmostProblem text e := by
  cases refused : Condition.check s.conditions with
  | ok passed =>
    rw [refused] at failed
    cases failed
  | error reason =>
    rw [refused] at failed
    cases failed
    exact .conditions scans phrase refused

/-- A text that is no statement has a leftmost problem, which is its error. -/
theorem isLeftmostProblem_of_ofText {text : String} {e : StatementError}
    (failed : ofText text = .error e) : IsLeftmostProblem text e := by
  obtain ⟨before, tokens, rest, failure?, scans, ends⟩ :=
    (Scans.start : Scans text.toList [] [] text.toList).exists_end
  obtain ⟨placed, read, same⟩ := tokenization_of_ends scans ends
  have tokens_eq := map_token same
  cases told : ofTokens (placed.map (·.token)) with
  | ok s =>
    have phrase := isStatement_of_ofTokens told
    rw [ofText_of_phrase read phrase] at failed
    rw [tokens_eq] at phrase
    cases failure? with
    | some _ =>
      cases failed
      exact isLeftmostProblem_of_ends scans ends (isViable_of_phrase ⟨s, phrase⟩)
    | none =>
      cases ends
      exact isLeftmostProblem_of_phrase scans phrase failed
  | error left =>
    have stuck := ofTokens_eq_error.mp told
    have blamed := failed
    rw [ofText_of_stuck read stuck] at blamed
    rw [tokens_eq] at stuck
    generalize tokensEq : tokensOf tokens = ts at stuck
    cases stuck with
    | ending viable unfinished =>
      rw [← tokensEq] at viable unfinished
      rw [List.length_nil, blame_end] at blamed
      cases failure? with
      | some _ =>
        cases blamed
        exact isLeftmostProblem_of_ends scans ends viable
      | none =>
        cases blamed
        cases ends
        exact .ending scans viable unfinished
    | token viable stuck =>
      -- The scan up to the token is enough for it to be the problem.
      obtain ⟨front, back, rfl, rfl, backEq⟩ := List.map_eq_append_iff.mp tokensEq
      obtain ⟨⟨t, position⟩, others, rfl, rfl, rfl⟩ := List.map_eq_cons_iff.mp backEq
      rw [List.append_cons] at scans
      obtain ⟨between, behind, upTo⟩ := scans.of_append
      cases (ofText_of_token upTo viable stuck).symm.trans failed
      exact .token upTo viable stuck

end Statement

end

namespace Statement

/-- **A text fails at its leftmost problem.** The error of a text that is no statement tells the first
character at which nothing begins, the first string literal with a malformed escape, or the first
token with which the tokens no longer begin any statement, whichever comes first, and the end of the
text if its tokens could go on to a statement. Only whole statements are held against the rules for
their conditions. -/
theorem ofText_eq_error_iff [CharacterNames] (text : String) (e : StatementError) :
    ofText text = .error e ↔ IsLeftmostProblem text e := by
  refine ⟨isLeftmostProblem_of_ofText, fun problem => ?_⟩
  cases problem with
  | character scans viable nothing =>
    exact ofText_of_ends scans (.illegal (Piece.illegal_iff.mpr nothing)) viable
  | @escape before body after tokens fault scans viable closed malformed =>
    rw [Piece.literal_append] at scans
    refine ofText_of_ends scans (.badString (Piece.badString_iff.mpr ?_)) viable
    exact ⟨body, after, closed, (Piece.literal_append body after).symm, malformed⟩
  | token scans viable stuck => exact ofText_of_token scans viable stuck
  | ending scans viable unfinished =>
    obtain ⟨placed, read, same⟩ := tokenization_of_ends scans .all
    rw [← map_token same] at viable unfinished
    rw [ofText_of_stuck read (.ending viable unfinished)]
    exact congrArg Except.error (blame_end _)
  | conditions scans phrase refused =>
    obtain ⟨placed, read, same⟩ := tokenization_of_ends scans .all
    rw [← map_token same] at phrase
    rw [ofText_of_phrase read phrase, refused]
    rfl

open scoped CharacterNames

example : ofText "get 1,, ?" = .error (.unexpectedToken (.symbol .comma) 6) ∧
    ofText "get 1, ?,," = .error (.illegalCharacter '?' 7) := by
  constructor <;> cbv

end Statement

end RecordQuery.Itq
