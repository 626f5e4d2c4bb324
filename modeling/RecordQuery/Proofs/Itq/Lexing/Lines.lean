import Mathlib
import RecordQuery.Proofs.Itq.Lexing.Blanks

/-!
# Lines of tokens

The lexer tells the line on which a token begins. It counts line feeds where it takes gaps, so the
line is short by the line feeds within the tokens in front (`Tokenization.ofText_lines`). Only
string literals and marked names hold any (`Lexeme.IsSpelled.isSome_iff_isQuoted`), and a comment
ends in front of its line feed.
-/

namespace RecordQuery.Itq

/-! ## Line feeds of lexemes -/

namespace Lexeme

/-- The lexeme is a string literal or a marked name. -/
def IsQuoted (lexeme : Lexeme) : Prop := IsLiteral lexeme.text ∨ lexeme.IsMarkedName

/-- The lexemes that are gaps. -/
def gaps (lexemes : List Lexeme) : List Lexeme := lexemes.filter (·.token?.isNone)

/-- The lexemes that spell tokens. -/
def spellings (lexemes : List Lexeme) : List Lexeme := lexemes.filter (·.token?.isSome)

/-- The line feeds in lexemes. -/
def lineFeeds (lexemes : List Lexeme) : Nat := (join lexemes).count '\n'

theorem lineFeeds_cons (lexeme : Lexeme) (lexemes : List Lexeme) :
    lineFeeds (lexeme :: lexemes) = lexeme.text.count '\n' + lineFeeds lexemes :=
  List.count_append

/-- Each line feed is one of a gap or one of a token. -/
theorem lineFeeds_gaps_add (lexemes : List Lexeme) :
    lineFeeds (gaps lexemes) + lineFeeds (spellings lexemes) = lineFeeds lexemes := by
  induction lexemes with
  | nil => rfl
  | cons lexeme lexemes ih =>
    obtain ⟨cs, token?⟩ := lexeme
    cases token? with
    | none =>
      have gap : gaps (⟨cs, none⟩ :: lexemes) = ⟨cs, none⟩ :: gaps lexemes := rfl
      have other : spellings (⟨cs, none⟩ :: lexemes) = spellings lexemes := rfl
      rw [gap, other, lineFeeds_cons, lineFeeds_cons]
      omega
    | some t =>
      have other : gaps (⟨cs, some t⟩ :: lexemes) = gaps lexemes := rfl
      have spelling : spellings (⟨cs, some t⟩ :: lexemes) = ⟨cs, some t⟩ :: spellings lexemes := rfl
      rw [spelling, other, lineFeeds_cons, lineFeeds_cons]
      omega

/-! ## Places of tokens -/

/-- A token stands behind the lexemes in front of its own, and on the line that their gaps lead
to. -/
theorem exists_of_mem_place {lexemes : List Lexeme} {position line : Nat} {token : PlacedToken}
    (member : token ∈ place position line lexemes) :
    ∃ front lexeme behind, lexemes = front ++ lexeme :: behind ∧
      lexeme.token? = some token.token ∧ token.position = position + (join front).length ∧
      token.line = line + lineFeeds (gaps front) := by
  induction lexemes generalizing position line with
  | nil => cases member
  | cons lexeme lexemes ih =>
    obtain ⟨cs, token?⟩ := lexeme
    have length (front : List Lexeme) :
        (join (⟨cs, token?⟩ :: front)).length = cs.length + (join front).length :=
      List.length_append
    cases token? with
    | none =>
      obtain ⟨front, lexeme, behind, rfl, told, place, onLine⟩ := ih member
      refine ⟨⟨cs, none⟩ :: front, lexeme, behind, rfl, told, ?_, ?_⟩
      · rw [place, length]
        omega
      · have gap : gaps (⟨cs, none⟩ :: front) = ⟨cs, none⟩ :: gaps front := rfl
        rw [onLine, gap, lineFeeds_cons, Nat.add_assoc]
    | some t =>
      rcases List.mem_cons.mp member with rfl | later
      · exact ⟨[], _, lexemes, rfl, rfl, rfl, rfl⟩
      · obtain ⟨front, lexeme, behind, rfl, told, place, onLine⟩ := ih later
        refine ⟨⟨cs, some t⟩ :: front, lexeme, behind, rfl, told, ?_, onLine⟩
        rw [place, length]
        omega

end Lexeme

/-! ## Lexemes that hold line feeds -/

section

variable [CharacterNames]

/-- Of the spellings of tokens only string literals and marked names hold line feeds. -/
theorem Spells.isLiteral_or_marked {cs : List Char} {t : Token} (spells : Spells cs t)
    (feed : '\n' ∈ cs) : IsLiteral cs ∨ cs.head? = some Piece.nameMark := by
  have unquoted (all : ∀ c ∈ cs, IsUnquoted c) : False := absurd (all _ feed) (by decide)
  cases spells with
  | integer negative whole =>
    exact (unquoted (isUnquoted_signed negative whole.isUnquoted)).elim
  | float negative whole part =>
    exact (unquoted (isUnquoted_signed negative (isUnquoted_decimal whole part))).elim
  | string closed decodes => exact .inl ⟨_, closed, rfl⟩
  | markedName filled unmarked => exact .inr rfl
  | name shape free => exact (unquoted shape.isUnquoted).elim
  | keyword shape reserved => exact (unquoted shape.isUnquoted).elim
  | symbol s => cases s <;> exact absurd feed (by decide)

namespace Lexeme

/-- A lexeme that holds a line feed is a token just when it is a string literal or a marked
name. -/
theorem IsSpelled.isSome_iff_isQuoted {lexeme : Lexeme} (spelled : lexeme.IsSpelled)
    (feed : '\n' ∈ lexeme.text) : lexeme.token?.isSome = true ↔ lexeme.IsQuoted := by
  cases spelled with
  | token spells => exact iff_of_true rfl (spells.isLiteral_or_marked feed)
  | gap gap =>
    refine iff_of_false Bool.false_ne_true ?_
    rintro (⟨body, -, same⟩ | mark)
    · cases gap <;> cases same
    · cases gap <;> cases mark

/-- The tokens hold no line feeds just when the string literals and the marked names hold none. -/
theorem lineFeeds_spellings_eq_zero {lexemes : List Lexeme}
    (spelled : ∀ lexeme ∈ lexemes, lexeme.IsSpelled) : lineFeeds (spellings lexemes) = 0 ↔
      ∀ lexeme ∈ lexemes, lexeme.IsQuoted → '\n' ∉ lexeme.text := by
  unfold lineFeeds join
  rw [List.count_eq_zero, List.mem_flatMap]
  constructor
  · intro without lexeme member quoted feed
    have token := ((spelled lexeme member).isSome_iff_isQuoted feed).mpr quoted
    exact without ⟨lexeme, List.mem_filter.mpr ⟨member, token⟩, feed⟩
  · rintro without ⟨lexeme, kept, feed⟩
    obtain ⟨member, token⟩ := List.mem_filter.mp kept
    exact without lexeme member (((spelled lexeme member).isSome_iff_isQuoted feed).mp token) feed

end Lexeme

end

/-! ## Lines of tokens -/

namespace Tokenization

/-- **The line of a token.** The lexemes in front of a token make up the text in front of it. The
line of the token and the line feeds that the tokens in front hold come to one more than the line
feeds in front of it. So the line is the true one just when no string literal and no marked name in
front holds a line feed. -/
theorem ofText_lines [CharacterNames] {text : String} {placed : List PlacedToken}
    (whole : (ofText text).all = .ok placed) {token : PlacedToken} (member : token ∈ placed) :
    ∃ front lexeme behind, Lexeme.ofText text = front ++ lexeme :: behind ∧
      (∀ lexeme ∈ Lexeme.ofText text, lexeme.IsSpelled) ∧
      lexeme.token? = some token.token ∧
      Lexeme.join front = text.toList.take token.position ∧
      token.line + Lexeme.lineFeeds (Lexeme.spellings front) =
        1 + (text.toList.take token.position).count '\n' ∧
      (token.line = 1 + (text.toList.take token.position).count '\n' ↔
        ∀ lexeme ∈ front, lexeme.IsQuoted → '\n' ∉ lexeme.text) := by
  obtain ⟨lexed, -⟩ := isTokenized_iff.mp ⟨placed, whole, rfl⟩
  have read : ofText text = ⟨Lexeme.place 0 1 (Lexeme.ofText text), none⟩ :=
    lexed.ofRest_eq_place 0 1
  rw [read] at whole
  cases whole
  obtain ⟨front, lexeme, behind, split, told, position, line⟩ := Lexeme.exists_of_mem_place member
  have spelled := lexed.spelled
  have before : Lexeme.join front = text.toList.take token.position := by
    rw [← lexed.join_eq, split, Lexeme.join_append, position, Nat.zero_add, List.take_left]
  have parts := Lexeme.lineFeeds_gaps_add front
  have feeds : Lexeme.lineFeeds front = (text.toList.take token.position).count '\n' :=
    congrArg (List.count '\n') before
  have each : ∀ lexeme ∈ front, lexeme.IsSpelled := fun lexeme inFront =>
    spelled lexeme (split ▸ List.mem_append_left _ inFront)
  refine ⟨front, lexeme, behind, split, spelled, told, before, ?_, ?_⟩
  · omega
  · rw [← Lexeme.lineFeeds_spellings_eq_zero each]
    omega

open scoped CharacterNames

/-- The comment and the line feed in front of the string literal count, and the one within it does
not. -/
theorem ofText_lines_of_comment :
    (ofText "-- a\n\"b\nc\" d").all =
        .ok [⟨.string "b\nc", 2, 5⟩, ⟨.identifier "d", 2, 11⟩] ∧
      ∃ front lexeme behind,
        Lexeme.ofText "-- a\n\"b\nc\" d" = front ++ lexeme :: behind ∧
        lexeme.token? = some (.identifier "d") ∧
        2 + Lexeme.lineFeeds (Lexeme.spellings front) = 3 := by
  have whole : (ofText "-- a\n\"b\nc\" d").all =
      .ok [⟨.string "b\nc", 2, 5⟩, ⟨.identifier "d", 2, 11⟩] := by cbv
  have member : (⟨.identifier "d", 2, 11⟩ : PlacedToken) ∈
      [⟨.string "b\nc", 2, 5⟩, ⟨.identifier "d", 2, 11⟩] := by simp
  obtain ⟨front, lexeme, behind, split, -, told, -, line, -⟩ := ofText_lines whole member
  exact ⟨whole, front, lexeme, behind, split, told, line⟩

/-- Behind a string literal with a line feed the line is too low. -/
theorem line_misses_string :
    (ofText "\"a\nb\" x").all = .ok [⟨.string "a\nb", 1, 0⟩, ⟨.identifier "x", 1, 6⟩] ∧
      1 < 1 + ("\"a\nb\" x".toList.take 6).count '\n' := by
  refine ⟨by cbv, ?_⟩
  decide

end Tokenization

end RecordQuery.Itq
