import Mathlib
import RecordQuery.Proofs.Script.Places

/-!
# Scripts cut at their semicolons

The splitter knows string literals only, while the lexer passes over comments and marked names too.
Where the splitter comes out of each of these as it went in (`IsPassed`), it cuts a script just at
the semicolons that are tokens, and the statements have the tokens of the script but for these
(`statements_isTokenized`).
-/

namespace RecordQuery.Script

open Itq (IsLexed IsLiteralBody IsTokenized IsUnquoted Lexeme Piece Spells Token)

/-! ## What the splitter passes over -/

/-- The splitter passes over the characters: it makes no cut in them and is outside of string
literals behind them. -/
def IsPassed (cs : List Char) : Prop :=
  ∀ current rest, partsFrom .outside current (cs ++ rest) =
    partsFrom .outside (cs.reverse ++ current) rest

theorem IsPassed.append {cs ds : List Char} (front : IsPassed cs) (behind : IsPassed ds) :
    IsPassed (cs ++ ds) := by
  intro current rest
  rw [List.append_assoc, front, behind, List.reverse_append, List.append_assoc]

/-- What leaves the splitter outside of literals, without a cut, is passed over. -/
theorem isPassed_of_after? {cs : List Char} (read : Place.outside.after? cs = some .outside) :
    IsPassed cs := partsFrom_append read

theorem isPassed_of_isPlain {cs : List Char} (plain : ∀ c ∈ cs, IsPlain c) : IsPassed cs :=
  isPassed_of_after? (Place.after?_outside_of_isPlain plain)

theorem isPassed_literal {body : List Char} (closed : IsLiteralBody body) :
    IsPassed (Itq.literal body) := isPassed_of_after? (Place.after?_literal closed)

theorem isPassed_of_isUnquoted {cs : List Char} (all : ∀ c ∈ cs, IsUnquoted c) : IsPassed cs := by
  refine isPassed_of_isPlain fun c member => ⟨?_, ?_⟩
  all_goals
    rintro rfl
    exact absurd (all _ member) (by decide)

section

variable [CharacterNames]

/-- Besides semicolons, only comments and marked names may keep the splitter from passing over a
token. -/
theorem isPassed_of_spells {cs : List Char} {t : Token} (spells : Spells cs t)
    (marked : cs.head? = some Piece.nameMark → IsPassed cs) (other : t ≠ .symbol .semicolon) :
    IsPassed cs := by
  cases spells with
  | integer negative whole =>
    exact isPassed_of_isUnquoted (Itq.isUnquoted_signed negative whole.isUnquoted)
  | float negative whole part =>
    exact isPassed_of_isUnquoted
      (Itq.isUnquoted_signed negative (Itq.isUnquoted_decimal whole part))
  | string closed _ => exact isPassed_literal closed
  | markedName => exact marked rfl
  | name shape _ => exact isPassed_of_isUnquoted shape.isUnquoted
  | keyword shape _ => exact isPassed_of_isUnquoted shape.isUnquoted
  | symbol s => cases s <;> first | exact absurd rfl other | exact fun _ _ => rfl

/-- The splitter passes over a lexeme that is none of those which it does not know. -/
theorem isPassed_of_isSpelled {lexeme : Lexeme} (spelled : lexeme.IsSpelled)
    (passed : lexeme.IsComment ∨ lexeme.IsMarkedName → IsPassed lexeme.text)
    (other : lexeme ≠ .semicolon) : IsPassed lexeme.text := by
  cases spelled with
  | token spells =>
    refine isPassed_of_spells spells (fun marked => passed (.inr marked)) ?_
    rintro rfl
    exact other (Lexeme.IsSpelled.eq_semicolon (.token spells) rfl)
  | gap gap =>
    cases gap with
    | blank => exact fun _ _ => rfl
    | tab => exact fun _ _ => rfl
    | lineFeeds more =>
      have feed : IsPlain '\n' := ⟨by decide, by decide⟩
      refine isPassed_of_isPlain (List.forall_mem_cons.mpr ⟨feed, fun c member => ?_⟩)
      rwa [List.eq_of_mem_replicate member]
    | comment line => exact passed (.inl ⟨rfl, rfl⟩)

end

/-! ## Cuts -/

section

variable {front behind lexemes : List Lexeme}

/-- What holds of lexemes without a semicolon, and goes from those behind a semicolon to those with
others in front of it, holds of all. -/
theorem cut_induction {motive : List Lexeme → Prop}
    (uncut : ∀ lexemes, .semicolon ∉ lexemes → motive lexemes)
    (cut : ∀ front behind, .semicolon ∉ front → motive behind →
      motive (front ++ .semicolon :: behind)) (lexemes : List Lexeme) : motive lexemes := by
  induction size : lexemes.length using Nat.strong_induction_on generalizing lexemes with
  | _ n ih =>
    by_cases member : .semicolon ∈ lexemes
    · obtain ⟨front, behind, rfl, first⟩ := List.eq_append_cons_of_mem member
      refine cut front behind first (ih _ ?_ behind rfl)
      rw [← size, List.length_append, List.length_cons]
      omega
    · exact uncut lexemes member

variable [CharacterNames]

theorem isPassed_join (spelled : ∀ lexeme ∈ lexemes, lexeme.IsSpelled)
    (passed : ∀ lexeme ∈ lexemes, lexeme.IsComment ∨ lexeme.IsMarkedName → IsPassed lexeme.text)
    (uncut : .semicolon ∉ lexemes) : IsPassed (Lexeme.join lexemes) := by
  induction lexemes with
  | nil => exact fun _ _ => rfl
  | cons lexeme lexemes ih =>
    rw [List.forall_mem_cons] at spelled passed
    rw [List.mem_cons, not_or] at uncut
    have front := isPassed_of_isSpelled spelled.1 passed.1 (Ne.symm uncut.1)
    exact front.append (ih spelled.2 passed.2 uncut.2)

/-- The parts of a script are the stretches between its semicolons. -/
theorem parts_join (spelled : ∀ lexeme ∈ lexemes, lexeme.IsSpelled)
    (passed : ∀ lexeme ∈ lexemes, lexeme.IsComment ∨ lexeme.IsMarkedName → IsPassed lexeme.text) :
    parts (Lexeme.join lexemes) = (lexemes.splitOn .semicolon).map Lexeme.join := by
  induction lexemes using cut_induction with
  | uncut lexemes uncut =>
    have whole := isPassed_join spelled passed uncut [] []
    rw [List.append_nil, List.append_nil] at whole
    rw [List.splitOn_eq_singleton uncut, parts, whole, partsFrom, List.reverse_reverse]
    rfl
  | cut front behind uncut ih =>
    rw [List.forall_mem_append, List.forall_mem_cons] at spelled passed
    have split : Lexeme.join (front ++ .semicolon :: behind) =
        Lexeme.join front ++ ';' :: Lexeme.join behind := Lexeme.join_append _ _
    have whole := isPassed_join spelled.1 passed.1 uncut [] (';' :: Lexeme.join behind)
    rw [List.splitOn_append_cons_self_of_not_mem uncut, List.map_cons,
      ← ih spelled.2.2 passed.2.2, split, parts, whole, partsFrom, if_pos rfl, List.append_nil,
      List.reverse_reverse]
    rfl

theorem isLexed_of_mem_splitOn {cs : List Char} (lexed : IsLexed cs lexemes) :
    ∀ stretch ∈ lexemes.splitOn .semicolon, IsLexed (Lexeme.join stretch) stretch := by
  induction lexemes using cut_induction generalizing cs with
  | uncut lexemes uncut =>
    rw [List.splitOn_eq_singleton uncut, List.forall_mem_singleton, lexed.join_eq]
    exact lexed
  | cut front behind uncut ih =>
    rw [List.splitOn_append_cons_self_of_not_mem uncut, List.forall_mem_cons]
    obtain ⟨before, later⟩ := lexed.of_append
    rw [← List.singleton_append] at later
    exact ⟨before, ih later.of_append.2⟩

theorem tokens_of_splitOn (spelled : ∀ lexeme ∈ lexemes, lexeme.IsSpelled) :
    ((lexemes.splitOn .semicolon).map Lexeme.tokens).flatten =
      (Lexeme.tokens lexemes).filter (· ≠ .symbol .semicolon) := by
  -- Only semicolons give the token.
  have free : ∀ lexemes : List Lexeme, (∀ lexeme ∈ lexemes, lexeme.IsSpelled) →
      .semicolon ∉ lexemes →
      (Lexeme.tokens lexemes).filter (· ≠ .symbol .semicolon) = Lexeme.tokens lexemes := by
    intro lexemes spelled uncut
    refine List.filter_eq_self.mpr fun t member => decide_eq_true ?_
    rintro rfl
    obtain ⟨lexeme, inside, told⟩ := List.mem_filterMap.mp member
    exact uncut ((spelled lexeme inside).eq_semicolon told ▸ inside)
  induction lexemes using cut_induction with
  | uncut lexemes uncut =>
    rw [List.splitOn_eq_singleton uncut, free lexemes spelled uncut]
    exact List.append_nil _
  | cut front behind uncut ih =>
    rw [List.forall_mem_append, List.forall_mem_cons] at spelled
    have split : Lexeme.tokens (front ++ .semicolon :: behind) =
        Lexeme.tokens front ++ .symbol .semicolon :: Lexeme.tokens behind := List.filterMap_append
    rw [List.splitOn_append_cons_self_of_not_mem uncut, List.map_cons, List.flatten_cons,
      ih spelled.2.2, split,
      List.filter_append, free front spelled.1 uncut, List.filter_cons_of_neg (by simp)]

end

/-! ## Statements -/

/-- Stripped of blanks, and left out if nothing remains, texts have the same tokens. -/
theorem exists_streams [CharacterNames] {stretches : List (List Lexeme)}
    (lexed : ∀ stretch ∈ stretches, IsLexed (Lexeme.join stretch) stretch) :
    ∃ streams, List.Forall₂ IsTokenized
      ((((stretches.map Lexeme.join).map Text.strip).filter fun part => !part.isEmpty).map
        String.ofList) streams ∧
      streams.flatten = (stretches.map Lexeme.tokens).flatten := by
  induction stretches with
  | nil => exact ⟨[], .nil, rfl⟩
  | cons stretch stretches ih =>
    rw [List.forall_mem_cons] at lexed
    obtain ⟨streams, later, same⟩ := ih lexed.2
    obtain ⟨stripped, part, tokens⟩ := lexed.1.exists_strip
    simp only [List.map_cons, List.flatten_cons]
    generalize Text.strip (Lexeme.join stretch) = cs at part ⊢
    cases cs with
    | nil =>
      cases part
      exact ⟨streams, later, by rw [same, ← tokens]; rfl⟩
    | cons c cs =>
      rw [List.filter_cons_of_pos rfl, List.map_cons]
      have front : IsTokenized (String.ofList (c :: cs)) (Lexeme.tokens stripped) :=
        IsLexed.isTokenized (by rwa [String.toList_ofList])
      exact ⟨_, .cons front later, by rw [List.flatten_cons, same, tokens]⟩

/-- **A script is cut at the semicolons that are tokens.** If the lexer reads it to its end and the
splitter passes over its comments and marked names, the parts are the stretches of lexemes between
semicolons, and the tokens of the statements, one after the other, are those of the script without
its semicolons. -/
theorem statements_isTokenized [CharacterNames] {script : String} {ts : List Token}
    (read : IsTokenized script ts)
    (passed : ∀ lexeme ∈ Lexeme.ofText script, lexeme.IsComment ∨ lexeme.IsMarkedName →
      IsPassed lexeme.text) :
    parts script.toList = ((Lexeme.ofText script).splitOn .semicolon).map Lexeme.join ∧
      ∃ streams, List.Forall₂ IsTokenized (statements script) streams ∧
        streams.flatten = ts.filter (· ≠ .symbol .semicolon) := by
  obtain ⟨lexed, rfl⟩ := Itq.isTokenized_iff.mp read
  have cut := parts_join lexed.spelled passed
  rw [lexed.join_eq] at cut
  refine ⟨cut, ?_⟩
  rw [statements, cut, ← tokens_of_splitOn lexed.spelled]
  exact exists_streams (isLexed_of_mem_splitOn lexed)

open scoped CharacterNames

/-- A script with semicolons in a string literal, a comment and a marked name, each within a pair of
quotes, is cut at the one between its statements. -/
theorem statements_isTokenized_of_pairs :
    let script := "get \"a;\\\"\" -- say \"hi; you\"\n; where \x60x\";\"\x60 = 1"
    let ts : List Token := [.keyword .get "get", .string "a;\"", .symbol .semicolon,
      .keyword .condition "where", .identifier "x\";\"", .symbol .assign, .integer 1]
    IsTokenized script ts ∧
      (∀ lexeme ∈ Lexeme.ofText script, lexeme.IsComment ∨ lexeme.IsMarkedName →
        IsPassed lexeme.text) ∧
      statements script =
        ["get \"a;\\\"\" -- say \"hi; you\"", "where \x60x\";\"\x60 = 1"] ∧
      ∃ streams, List.Forall₂ IsTokenized (statements script) streams ∧
        streams.flatten = ts.filter (· ≠ .symbol .semicolon) := by
  intro script ts
  have read : IsTokenized script ts := ⟨_, by cbv, by cbv⟩
  let unknown (lexeme : Lexeme) : Bool := lexeme.IsComment ∨ lexeme.IsMarkedName
  have hidden : (Lexeme.ofText script).filter unknown =
      [⟨"-- say \"hi; you\"".toList, none⟩,
        ⟨"\x60x\";\"\x60".toList, some (.identifier "x\";\"")⟩] := by cbv
  have passed : ∀ lexeme ∈ Lexeme.ofText script, lexeme.IsComment ∨ lexeme.IsMarkedName →
      IsPassed lexeme.text := by
    intro lexeme member either
    have found : lexeme ∈ (Lexeme.ofText script).filter unknown :=
      List.mem_filter.mpr ⟨member, decide_eq_true either⟩
    rw [hidden, List.mem_pair] at found
    rcases found with rfl | rfl <;> exact fun _ _ => rfl
  exact ⟨read, passed, by cbv, (statements_isTokenized read passed).2⟩

/-- The quote in a comment opens no string literal for the lexer, but it does for the splitter,
which misses the semicolon behind it. -/
theorem statements_misses_semicolon :
    let script := "-- say \"hi\nget 1; get 2"
    let ts : List Token := [.keyword .get "get", .integer 1, .symbol .semicolon,
      .keyword .get "get", .integer 2]
    IsTokenized script ts ∧ statements script = [script] ∧
      ¬ ∃ streams, List.Forall₂ IsTokenized (statements script) streams ∧
        streams.flatten = ts.filter (· ≠ .symbol .semicolon) := by
  intro script ts
  have read : IsTokenized script ts := ⟨_, by cbv, by cbv⟩
  have whole : statements script = [script] := by cbv
  refine ⟨read, whole, ?_⟩
  rw [whole]
  rintro ⟨streams, told, same⟩
  cases told with
  | cons first later =>
    cases later
    rw [first.unique read] at same
    cases same

end RecordQuery.Script
