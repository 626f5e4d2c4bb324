import Mathlib
import RecordQuery.Proofs.Itq.Writing.Tokens
import RecordQuery.Proofs.Script.Places

/-!
# String literals in scripts

The lexer and the splitter agree about string literals. The literal that a text is escaped into is
read as one token of that text, which ends at the closing quote whatever follows it, and just between
its quotes the splitter is inside of a literal (`literal_codec`).
-/

namespace RecordQuery.Script

open Itq (Lexeme Piece Token Tokenization)
open Itq.StringLiteral (escaped isLiteralBody_escaped)

section

variable [CharacterNames]

/-- What the lexer takes from the front of the literal that a text is escaped into. -/
theorem exists_written (s : String) (after : List Char) :
    ∃ more, (Token.string s).written = '"' :: more ∧
      Piece.atFront '"' (more ++ after) = .token (.string s) more.length := by
  refine ⟨escaped s.toList ++ ['"'], by rw [Token.written, CodeText.text_ofString]; rfl, ?_⟩
  rw [List.append_assoc, List.length_append]
  exact Piece.atFront_escaped s after

/-- The lexer makes one token of the literal, and goes on behind its closing quote. -/
theorem ofRest_written (s : String) (after : List Char) (position line : Nat) :
    Tokenization.ofRest 0 position line ((Token.string s).written ++ after) =
      (Tokenization.ofRest 0 (position + (Token.string s).written.length) line after).behind
        [⟨.string s, line, position⟩] := by
  obtain ⟨more, spelled, front⟩ := exists_written s after
  have further : position + 1 + more.length = position + (Token.string s).written.length := by
    rw [spelled, List.length_cons]
    omega
  rw [spelled, List.cons_append, Tokenization.ofRest_zero_cons, front]
  dsimp only
  rw [Tokenization.ofRest_skip, List.drop_left, List.take_left, further, spelled]

theorem lexemes_written (s : String) (after : List Char) :
    Lexeme.ofRest 0 ((Token.string s).written ++ after) =
      ⟨(Token.string s).written, some (.string s)⟩ :: Lexeme.ofRest 0 after := by
  obtain ⟨more, spelled, front⟩ := exists_written s after
  rw [spelled, List.cons_append, Lexeme.ofRest_zero_cons, front]
  dsimp only [Piece.taken?]
  rw [List.drop_left, List.take_left]

end

/-- **Literals in any context.** Whatever follows it, the literal that a text is escaped into is read
as one token of that text, at any position of any line, and reading goes on right behind its closing
quote; so the literal is one lexeme. The splitter, wherever it is in a script outside of literals,
makes no cut in it and is inside of a literal just between its quotes. -/
theorem literal_codec [CharacterNames] (s : String) (after : List Char) :
    let written := (Token.string s).written
    written = '"' :: (escaped s.toList ++ ['"']) ∧
      (Tokenization.ofText (String.ofList (written ++ after))).tokens.head? =
        some ⟨.string s, 1, 0⟩ ∧
      (∀ position line, Tokenization.ofRest 0 position line (written ++ after) =
        (Tokenization.ofRest 0 (position + written.length) line after).behind
          [⟨.string s, line, position⟩]) ∧
      Lexeme.ofRest 0 (written ++ after) =
        ⟨written, some (.string s)⟩ :: Lexeme.ofRest 0 after ∧
      ∀ n, ∃ place : Place, (place = .outside ↔ n = 0 ∨ written.length ≤ n) ∧
        ∀ current rest, partsFrom .outside current (written.take n ++ rest) =
          partsFrom place ((written.take n).reverse ++ current) rest := by
  intro written
  have spelled : written = '"' :: (escaped s.toList ++ ['"']) := by
    rw [show written = (Token.string s).written from rfl, Token.written, CodeText.text_ofString]
    rfl
  refine ⟨spelled, ?_, ofRest_written s after, lexemes_written s after, fun n => ?_⟩
  · rw [Tokenization.ofText, String.toList_ofList, ofRest_written]
    rfl
  · obtain ⟨place, stands, outer⟩ :=
      Place.exists_after?_take_literal (isLiteralBody_escaped s.toList) n
    rw [spelled]
    exact ⟨place, outer, partsFrom_append stands⟩

end RecordQuery.Script
