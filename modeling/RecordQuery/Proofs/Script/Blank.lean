import Mathlib
import RecordQuery.Proofs.Itq.Lexing.Blanks
import RecordQuery.Shell.Session

/-!
# Blank statements

Whether a statement is blank is told line by line, and lines end at any line break of Unicode, while
the comments of the lexer end at line feeds only. So a statement without tokens counts as blank just
if the lines of its comments are blanks and comments themselves (`isBlank_iff`), and one with tokens
never does.
-/

namespace RecordQuery.Script

open Itq (IsDigits IsGap IsLexed IsTokenized Lexeme Piece Spells Token)

/-! ## Lines -/

/-- A line of blanks, or of a comment behind blanks. -/
inductive IsCommentLine : List Char → Prop where
  | blank {line : List Char} (blank : ∀ c ∈ line, Text.isBlank c = true) : IsCommentLine line
  | comment {blanks rest : List Char} (blank : ∀ c ∈ blanks, Text.isBlank c = true) :
      IsCommentLine (blanks ++ '-' :: '-' :: rest)

theorem strip_comment (rest : List Char) : Text.strip ('-' :: '-' :: rest) =
    '-' :: '-' :: rest.rdropWhile Text.isBlank := by
  have edges : ['-', '-'].dropWhile Text.isBlank = ['-', '-'] := rfl
  have front : ('-' :: '-' :: rest).dropWhile Text.isBlank = '-' :: '-' :: rest := rfl
  unfold Text.strip
  rw [front, List.reverse_cons, List.reverse_cons, List.append_assoc, List.dropWhile_append]
  split
  · rename_i blank
    rw [List.singleton_append, edges, List.rdropWhile, List.isEmpty_iff.mp blank]
    rfl
  · rw [List.reverse_append]
    rfl

theorem strip_append_of_isBlank {blanks : List Char} (blank : ∀ c ∈ blanks, Text.isBlank c = true)
    (rest : List Char) : Text.strip (blanks ++ rest) = Text.strip rest := by
  unfold Text.strip
  rw [List.dropWhile_append_of_pos blank]

theorem isBlankLine_append {blanks : List Char} (blank : ∀ c ∈ blanks, Text.isBlank c = true)
    (line : List Char) : isBlankLine (blanks ++ line) = isBlankLine line := by
  unfold isBlankLine
  rw [strip_append_of_isBlank blank]

/-- What begins a line with something else than blanks and hyphens makes it no comment line. -/
theorem not_isCommentLine {c : Char} {rest : List Char} (filled : Text.isBlank c = false)
    (other : ¬ ['-', '-'] <+: c :: rest) : ¬ IsCommentLine (c :: rest) := by
  intro shape
  generalize whole : c :: rest = line at shape other
  cases shape with
  | blank blank =>
    have first := blank c (whole ▸ List.mem_cons_self)
    rw [filled] at first
    cases first
  | @comment blanks behind blank =>
    cases blanks with
    | nil => exact other ⟨behind, rfl⟩
    | cons d blanks =>
      cases whole
      have first := blank c List.mem_cons_self
      rw [filled] at first
      cases first

theorem isBlankLine_iff {line : List Char} : isBlankLine line = true ↔ IsCommentLine line := by
  constructor
  · intro told
    have split := List.takeWhile_append_dropWhile (p := Text.isBlank) (l := line)
    have inside : ∀ c ∈ line.takeWhile Text.isBlank, Text.isBlank c = true :=
      fun c member => List.mem_takeWhile_imp member
    have front : Text.strip line <+: line.dropWhile Text.isBlank :=
      List.rdropWhile_prefix Text.isBlank _
    unfold isBlankLine at told
    split at told
    · rename_i nothing
      have behind : ∀ c ∈ line.dropWhile Text.isBlank, Text.isBlank c = true :=
        List.rdropWhile_eq_nil_iff.mp nothing
      rw [← split]
      exact .blank (List.forall_mem_append.mpr ⟨inside, behind⟩)
    · rename_i rest comment
      rw [comment] at front
      obtain ⟨after, same⟩ := front
      rw [← split, ← same]
      exact .comment inside
    · cases told
  · intro shape
    unfold isBlankLine
    cases shape with
    | blank blank =>
      have nothing : Text.strip line = [] := by
        unfold Text.strip
        rw [List.dropWhile_eq_nil_iff.mpr blank]
        rfl
      rw [nothing]
    | comment blank =>
      rw [strip_append_of_isBlank blank, strip_comment]
      rfl

/-- Whether the lines behind a part of a line, which is held in reverse, are blank. -/
def areBlankFrom (current cs : List Char) : Bool := (Text.linesFrom current cs).all isBlankLine

theorem areBlankFrom_nil (current : List Char) :
    areBlankFrom current [] = isBlankLine current.reverse := by
  cases current with
  | nil => rfl
  | cons c current => exact Bool.and_true _

theorem areBlankFrom_cons (current : List Char) (c : Char) (rest : List Char) :
    areBlankFrom current (c :: rest) =
      if Text.isLineBreak c then isBlankLine current.reverse && areBlankFrom [] rest
      else areBlankFrom (c :: current) rest := by
  by_cases pair : ∃ later, c = '\r' ∧ rest = '\n' :: later
  · -- The line feed of a pair ends an empty line, which is blank.
    obtain ⟨later, rfl, rfl⟩ := pair
    have read : Text.linesFrom current ('\r' :: '\n' :: later) =
        current.reverse :: Text.linesFrom [] later := by rw [Text.linesFrom]
    have behind : Text.linesFrom [] ('\n' :: later) = [] :: Text.linesFrom [] later := by
      rw [Text.linesFrom]
      · rfl
      · exact fun _ same => absurd same (by decide)
    rw [if_pos (by decide)]
    unfold areBlankFrom
    rw [read, behind]
    rfl
  · have read : Text.linesFrom current (c :: rest) =
        if Text.isLineBreak c then current.reverse :: Text.linesFrom [] rest
        else Text.linesFrom (c :: current) rest := by
      rw [Text.linesFrom]
      exact fun later same next => pair ⟨later, same, next⟩
    unfold areBlankFrom
    rw [read]
    split <;> rfl

/-- Blanks at the front of a line do not count. -/
theorem areBlankFrom_append_of_isBlank {blanks : List Char}
    (blank : ∀ c ∈ blanks, Text.isBlank c = true) (current cs : List Char) :
    areBlankFrom (current ++ blanks) cs = areBlankFrom current cs := by
  have line (current : List Char) :
      isBlankLine (current ++ blanks).reverse = isBlankLine current.reverse := by
    rw [List.reverse_append]
    exact isBlankLine_append (fun c member => blank c (List.mem_reverse.mp member)) _
  induction cs generalizing current with
  | nil => rw [areBlankFrom_nil, areBlankFrom_nil, line]
  | cons c cs ih =>
    have later := ih (c :: current)
    rw [List.cons_append] at later
    rw [areBlankFrom_cons, areBlankFrom_cons, line, later]

/-- The lines in front of a line feed and those behind it are told on their own. -/
theorem areBlankFrom_lineFeed (current front behind : List Char) :
    areBlankFrom current (front ++ '\n' :: behind) =
      (areBlankFrom current front && areBlankFrom [] behind) := by
  induction front generalizing current with
  | nil =>
    rw [List.nil_append, areBlankFrom_cons, if_pos (by decide), areBlankFrom_nil]
  | cons c front ih =>
    rw [List.cons_append, areBlankFrom_cons, areBlankFrom_cons, ih, ih]
    split
    · rw [Bool.and_assoc]
    · rfl

theorem areBlankFrom_append {front : List Char} (line : ∀ c ∈ front, Text.isLineBreak c = false)
    (current rest : List Char) :
    areBlankFrom current (front ++ rest) = areBlankFrom (front.reverse ++ current) rest := by
  induction front generalizing current with
  | nil => rfl
  | cons c front ih =>
    rw [List.forall_mem_cons] at line
    rw [List.cons_append, areBlankFrom_cons, if_neg (by rw [line.1]; decide), ih line.2,
      List.reverse_cons, List.append_assoc]
    rfl

/-- A line that can only be of another kind settles the matter. -/
theorem areBlankFrom_eq_false {current : List Char}
    (other : ∀ more, ¬ IsCommentLine (current.reverse ++ more)) (cs : List Char) :
    areBlankFrom current cs = false := by
  induction cs generalizing current with
  | nil =>
    have whole := other []
    rw [List.append_nil] at whole
    rw [areBlankFrom_nil]
    exact eq_false_of_ne_true fun told => whole (isBlankLine_iff.mp told)
  | cons c cs ih =>
    rw [areBlankFrom_cons]
    split
    · have whole := other []
      rw [List.append_nil] at whole
      rw [eq_false_of_ne_true fun told => whole (isBlankLine_iff.mp told), Bool.false_and]
    · refine ih fun more => ?_
      rw [List.reverse_cons, List.append_assoc]
      exact other (c :: more)

/-! ## Lexemes -/

theorem isLineBreak_of_not_isBlank {c : Char} (filled : Text.isBlank c = false) :
    Text.isLineBreak c = false := by
  have included : ∀ code ∈ Text.lineBreakCodes, code ∈ Text.blankCodes := by decide
  by_contra ends
  have member := List.contains_iff_mem.mp (eq_true_of_ne_false ends)
  have blank : Text.isBlank c = true := List.contains_iff_mem.mpr (included _ member)
  rw [filled] at blank
  cases blank

theorem digit_of_hyphen {negative : Bool} {digits after cs : List Char} (whole : IsDigits digits)
    (same : Text.sign negative ++ (digits ++ after) = '-' :: cs) :
    ∃ d rest, cs = d :: rest ∧ Text.isDigit d = true := by
  obtain ⟨d, digits, rfl⟩ := List.exists_cons_of_ne_nil whole.filled
  have digit := whole.digits d List.mem_cons_self
  cases negative with
  | true =>
    cases same
    exact ⟨d, _, rfl, digit⟩
  | false =>
    cases same
    cases digit

/-- A token that begins with a hyphen is a number. -/
theorem digit_of_spells [CharacterNames] {cs : List Char} {t : Token}
    (spells : Spells ('-' :: cs) t) :
    ∃ d rest, cs = d :: rest ∧ Text.isDigit d = true := by
  generalize same : '-' :: cs = text at spells
  cases spells with
  | @integer negative digits whole =>
    rw [← List.append_nil digits] at same
    exact digit_of_hyphen whole same.symm
  | float negative whole part => exact digit_of_hyphen whole same.symm
  | string closed decodes => cases same
  | markedName filled unmarked => cases same
  | name shape free =>
    cases shape with
    | mk begins continues =>
      cases same
      cases begins
  | keyword shape reserved =>
    cases shape with
    | mk begins continues =>
      cases same
      cases begins
  | symbol s => cases s <;> cases same

/-- A token begins with characters that no comment line begins with. -/
theorem exists_start [CharacterNames] {c : Char} {more : List Char} {t : Token}
    (spells : Spells (c :: more) t) :
    ∃ front rest, c :: more = front ++ rest ∧ (∀ d ∈ front, Text.isLineBreak d = false) ∧
      ∀ after, ¬ IsCommentLine (front ++ after) := by
  have filled := spells.hasEdges.first c rfl
  by_cases hyphen : c = '-'
  · subst hyphen
    obtain ⟨d, rest, rfl, digit⟩ := digit_of_spells spells
    have other : Text.isBlank d = false := Itq.IsUnquoted.not_isBlank (.inl digit)
    refine ⟨['-', d], rest, rfl, ?_, fun after => not_isCommentLine filled ?_⟩
    · rw [List.forall_mem_cons, List.forall_mem_singleton]
      exact ⟨isLineBreak_of_not_isBlank filled, isLineBreak_of_not_isBlank other⟩
    · rintro ⟨behind, same⟩
      cases same
      cases digit
  · refine ⟨[c], more, rfl, ?_, fun after => not_isCommentLine filled ?_⟩
    · exact List.forall_mem_singleton.mpr (isLineBreak_of_not_isBlank filled)
    · rintro ⟨behind, same⟩
      cases same
      exact hyphen rfl

theorem areBlankFrom_of_spells [CharacterNames] {c : Char} {more : List Char} {t : Token}
    (spells : Spells (c :: more) t) (after : List Char) :
    areBlankFrom [] (c :: (more ++ after)) = false := by
  obtain ⟨front, rest, split, line, other⟩ := exists_start spells
  rw [← List.cons_append, split, List.append_assoc, areBlankFrom_append line]
  refine areBlankFrom_eq_false (fun more => ?_) _
  rw [List.append_nil, List.reverse_reverse]
  exact other more

/-- The comment that the lexer takes ends at a line feed or with the text. -/
theorem head?_of_comment [CharacterNames] {line after : List Char} {token? : Option Token}
    (front : (Piece.atFront '-' ('-' :: line ++ after)).taken? =
      some (token?, ('-' :: line).length))
    (noFeed : ∀ c ∈ line, c ≠ '\n') : ∀ c ∈ after.head?, c = '\n' := by
  have taken : (Piece.atFront '-' ('-' :: line ++ after)).taken? =
      some (none, ((line ++ after).takeWhile (· != '\n')).length + 1) := rfl
  have inside : ∀ c ∈ line, (c != '\n') = true := fun c member => bne_iff_ne.mpr (noFeed c member)
  intro c first
  by_contra other
  obtain ⟨after, rfl⟩ := List.head?_eq_some_iff.mp first
  have further : (c :: after).takeWhile (· != '\n') = c :: after.takeWhile (· != '\n') :=
    List.takeWhile_cons_of_pos (bne_iff_ne.mpr other)
  rw [List.takeWhile_append_of_pos inside, further, front] at taken
  simp at taken

theorem areBlankFrom_blank {c : Char} (blank : Text.isBlank c = true)
    (line : Text.isLineBreak c = false) (after : List Char) :
    areBlankFrom [] (c :: after) = areBlankFrom [] after := by
  rw [areBlankFrom_cons, if_neg (by rw [line]; decide)]
  exact areBlankFrom_append_of_isBlank (List.forall_mem_singleton.mpr blank) [] after

theorem areBlankFrom_lineFeeds (more : Nat) (after : List Char) :
    areBlankFrom [] (List.replicate more '\n' ++ after) = areBlankFrom [] after := by
  induction more with
  | zero => rfl
  | succ more ih =>
    have first := areBlankFrom_lineFeed [] [] (List.replicate more '\n' ++ after)
    rw [ih] at first
    exact first

/-- The lines of a gap and those behind it are told on their own. -/
theorem areBlankFrom_gap {gap after : List Char} (shape : IsGap gap)
    (ends : gap.head? = some '-' → ∀ c ∈ after.head?, c = '\n') :
    areBlankFrom [] (gap ++ after) = (areBlankFrom [] gap && areBlankFrom [] after) := by
  cases shape with
  | blank => exact areBlankFrom_blank (by decide) (by decide) after
  | tab => exact areBlankFrom_blank (by decide) (by decide) after
  | lineFeeds more =>
    have alone := areBlankFrom_lineFeeds (more + 1) []
    rw [List.append_nil] at alone
    rw [← List.replicate_succ, areBlankFrom_lineFeeds, alone]
    rfl
  | @comment line =>
    cases after with
    | nil =>
      rw [List.append_nil]
      exact (Bool.and_true _).symm
    | cons c after =>
      rw [ends rfl c rfl, areBlankFrom_lineFeed]
      exact congrArg _ (areBlankFrom_lineFeeds 1 after).symm

/-- The lines of every comment are comment lines. -/
def HasCommentLines (lexemes : List Lexeme) : Prop :=
  ∀ lexeme ∈ lexemes, lexeme.IsComment → ∀ line ∈ Text.lines lexeme.text, IsCommentLine line

theorem areBlankFrom_gap_iff {gap : List Char} (shape : IsGap gap) :
    areBlankFrom [] gap = true ↔
      (Lexeme.IsComment ⟨gap, none⟩ → ∀ line ∈ Text.lines gap, IsCommentLine line) := by
  have told : areBlankFrom [] gap = true ↔ ∀ line ∈ Text.lines gap, IsCommentLine line :=
    List.all_eq_true.trans (forall₂_congr fun _ _ => isBlankLine_iff)
  cases shape with
  | blank => exact iff_of_true rfl fun comment => by cases comment.2
  | tab => exact iff_of_true rfl fun comment => by cases comment.2
  | lineFeeds more =>
    have alone := areBlankFrom_lineFeeds (more + 1) []
    rw [List.append_nil] at alone
    exact iff_of_true alone fun comment => by cases comment.2
  | comment line => exact told.trans ⟨fun all _ => all, fun all => all ⟨rfl, rfl⟩⟩

theorem areBlankFrom_iff [CharacterNames] {cs : List Char} {lexemes : List Lexeme}
    (lexed : IsLexed cs lexemes) :
    areBlankFrom [] cs = true ↔ Lexeme.tokens lexemes = [] ∧ HasCommentLines lexemes := by
  induction lexed with
  | nil => exact iff_of_true rfl ⟨rfl, List.forall_mem_nil _⟩
  | @cons c more after token? lexemes front later ih =>
    have spelled := (IsLexed.cons front later).spelled _ List.mem_cons_self
    rw [Lexeme.tokens_cons, HasCommentLines, List.forall_mem_cons]
    cases spelled with
    | token spells =>
      refine iff_of_false (by rw [areBlankFrom_of_spells spells]; decide) ?_
      rintro ⟨none, -⟩
      cases none
    | gap shape =>
      have ends : (c :: more).head? = some '-' → ∀ d ∈ after.head?, d = '\n' := by
        intro hyphen
        cases hyphen
        cases shape with
        | comment line => exact head?_of_comment front line
      rw [← List.cons_append, areBlankFrom_gap shape ends, Bool.and_eq_true,
        areBlankFrom_gap_iff shape, ih]
      exact and_left_comm

/-! ## Statements -/

/-- **Which statements count as blank.** A text that the lexer reads to its end counts as blank just
if it has no tokens and the lines of its comments, as they end at the line breaks of Unicode, are
comment lines. These are the statements of a script that are not executed, and the lines of a
session that ask for nothing. -/
theorem isBlank_iff [CharacterNames] {text : String} {ts : List Token} (read : IsTokenized text ts) :
    (isBlank text = true ↔ ts = [] ∧ HasCommentLines (Lexeme.ofText text)) ∧
      (∀ script, text ∈ statements script → (text ∉ Shell.statementsOf script ↔
        ts = [] ∧ HasCommentLines (Lexeme.ofText text))) ∧
      ∀ line : String, Text.strip line.toList = text.toList →
        (Shell.Request.ofLine line = .nothing ↔
          ts = [] ∧ HasCommentLines (Lexeme.ofText text)) := by
  obtain ⟨lexed, rfl⟩ := Itq.isTokenized_iff.mp read
  have told : isBlank text = true ↔
      Lexeme.tokens (Lexeme.ofText text) = [] ∧ HasCommentLines (Lexeme.ofText text) :=
    areBlankFrom_iff lexed
  refine ⟨told, fun script member => ?_, fun line stripped => ?_⟩
  · rw [← told, Shell.statementsOf, List.mem_filter, not_and]
    simp [member]
  · rw [← told]
    unfold Shell.Request.ofLine
    dsimp only
    rw [stripped, String.ofList_toList]
    split
    · rename_i either
      refine iff_of_true rfl ((Bool.or_eq_true_iff.mp either).elim (fun nothing => ?_) id)
      rw [isBlank, List.isEmpty_iff.mp nothing]
      rfl
    · rename_i neither
      refine iff_of_false ?_ fun blank => neither (Bool.or_eq_true_iff.mpr (.inr blank))
      split <;> exact fun same => by cases same

open scoped CharacterNames

/-- A comment that a carriage return divides into two comments is blank in a script and in a
session. -/
theorem isBlank_iff_of_comments :
    let text := "-- a\x0d-- b"
    IsTokenized text [] ∧ text ∈ statements "get 1; -- a\x0d-- b" ∧
      Text.strip " -- a\x0d-- b ".toList = text.toList ∧ isBlank text = true ∧
      text ∉ Shell.statementsOf "get 1; -- a\x0d-- b" ∧
      Shell.Request.ofLine " -- a\x0d-- b " = .nothing := by
  intro text
  have read : IsTokenized text [] := ⟨_, by cbv, by cbv⟩
  have member : text ∈ statements "get 1; -- a\x0d-- b" := by
    have all : statements "get 1; -- a\x0d-- b" = ["get 1", text] := by cbv
    rw [all]
    exact List.mem_cons_of_mem _ List.mem_cons_self
  have stripped : Text.strip " -- a\x0d-- b ".toList = text.toList := by cbv
  have lines : HasCommentLines (Lexeme.ofText text) := by
    have whole : Lexeme.ofText text = [⟨text.toList, none⟩] := by cbv
    have cut : Text.lines text.toList = ["-- a".toList, "-- b".toList] := by cbv
    rw [whole, HasCommentLines, List.forall_mem_singleton, cut]
    intro _ line inside
    rw [List.mem_pair] at inside
    rcases inside with rfl | rfl
    · exact @IsCommentLine.comment [] _ (List.forall_mem_nil _)
    · exact @IsCommentLine.comment [] _ (List.forall_mem_nil _)
  obtain ⟨told, script, session⟩ := isBlank_iff read
  exact ⟨read, member, stripped, told.mpr ⟨rfl, lines⟩, (script _ member).mpr ⟨rfl, lines⟩,
    (session _ stripped).mpr ⟨rfl, lines⟩⟩

/-- A comment goes on behind a vertical tab for the lexer, but not line by line: the text has no
tokens and is executed all the same. -/
theorem not_isBlank_of_verticalTab :
    let text := "-- a\x0bget 1"
    IsTokenized text [] ∧ isBlank text = false ∧ Shell.statementsOf text = [text] := by
  exact ⟨⟨_, by cbv, by cbv⟩, by cbv, by cbv⟩

end RecordQuery.Script
