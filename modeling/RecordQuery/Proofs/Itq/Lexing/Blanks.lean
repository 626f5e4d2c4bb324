import Mathlib
import RecordQuery.Proofs.Itq.Lexing.Division

/-!
# Blanks around a text

Stripping takes blanks off both ends of a text and leaves other characters there
(`Text.exists_strip`, `Text.hasEdges_strip`). These blanks are more than those which the lexer passes
over, but at the ends of a text that it can read they only belong to gaps: no token begins or ends
with a blank (`Spells.hasEdges`). So the text without them has the same tokens (`IsLexed.exists_strip`).
-/

namespace RecordQuery.Itq

/-! ## Blanks and tokens -/

/-- What holds of each blank of the table holds of every blank. -/
theorem of_isBlank {p : Char → Prop} (each : ∀ code ∈ Text.blankCodes, p (Char.ofNat code))
    {c : Char} (blank : Text.isBlank c = true) : p c := by
  have same := each c.toNat (List.contains_iff_mem.mp blank)
  rwa [Char.ofNat_toNat] at same

/-- Tokens other than symbols that stand without quotes and marks consist of such characters. -/
def IsUnquoted (c : Char) : Prop :=
  Text.isDigit c = true ∨ Piece.continuesName c = true ∨ c = '-' ∨ c = '.'

instance : DecidablePred IsUnquoted := fun _ => inferInstanceAs (Decidable (_ ∨ _))

theorem IsUnquoted.not_isBlank {c : Char} (unquoted : IsUnquoted c) : Text.isBlank c = false :=
  eq_false_of_ne_true fun blank =>
    of_isBlank (p := fun c => ¬ IsUnquoted c) (by decide) blank unquoted

theorem IsDigits.isUnquoted {cs : List Char} (digits : IsDigits cs) : ∀ c ∈ cs, IsUnquoted c :=
  fun c member => .inl (digits.digits c member)

theorem isUnquoted_signed (negative : Bool) {cs : List Char} (unsigned : ∀ c ∈ cs, IsUnquoted c) :
    ∀ c ∈ Text.sign negative ++ cs, IsUnquoted c := by
  cases negative with
  | true => exact List.forall_mem_cons.mpr ⟨by decide, unsigned⟩
  | false => exact unsigned

theorem isUnquoted_decimal {whole part : List Char} (digits : IsDigits whole)
    (digits' : IsDigits part) : ∀ c ∈ whole ++ '.' :: part, IsUnquoted c := by
  refine List.forall_mem_append.mpr ⟨digits.isUnquoted, ?_⟩
  exact List.forall_mem_cons.mpr ⟨by decide, digits'.isUnquoted⟩

theorem IsWord.isUnquoted {cs : List Char} (shape : IsWord cs) : ∀ c ∈ cs, IsUnquoted c := by
  cases shape with
  | @mk c cs begins continues =>
    exact List.forall_mem_cons.mpr ⟨.inr (.inl (continuesName_of_beginsName begins)),
      fun d member => .inr (.inl (continues d member))⟩

/-- Neither the first nor the last character is a blank. -/
structure HasEdges (cs : List Char) : Prop where
  first : ∀ c ∈ cs.head?, Text.isBlank c = false
  last : ∀ c ∈ cs.getLast?, Text.isBlank c = false

theorem hasEdges_of_all {cs : List Char} (all : ∀ c ∈ cs, Text.isBlank c = false) : HasEdges cs :=
  ⟨fun c first => all c (List.mem_of_mem_head? first),
    fun c last => all c (List.mem_of_mem_getLast? last)⟩

theorem hasEdges_of_isUnquoted {cs : List Char} (all : ∀ c ∈ cs, IsUnquoted c) : HasEdges cs :=
  hasEdges_of_all fun c member => (all c member).not_isBlank

theorem hasEdges_between {c : Char} (edge : Text.isBlank c = false) (cs : List Char) :
    HasEdges (c :: (cs ++ [c])) := by
  refine ⟨fun d first => ?_, fun d last => ?_⟩
  · cases first
    exact edge
  · rw [← List.cons_append, List.getLast?_concat] at last
    cases last
    exact edge

end RecordQuery.Itq

namespace RecordQuery.Text

/-! ## Stripped texts -/

theorem strip_eq (cs : List Char) : strip cs = (cs.dropWhile isBlank).rdropWhile isBlank := rfl

theorem isBlank_last (cs : List Char) :
    ∀ c ∈ (cs.rdropWhile isBlank).getLast?, isBlank c = false := by
  intro c last
  obtain ⟨filled, rfl⟩ := List.mem_getLast?_eq_getLast last
  exact eq_false_of_ne_true (List.rdropWhile_last_not _ _ filled)

/-- Stripping takes blanks off both ends. -/
theorem exists_strip (cs : List Char) : ∃ lead trail, cs = lead ++ (strip cs ++ trail) ∧
    (∀ c ∈ lead, isBlank c = true) ∧ ∀ c ∈ trail, isBlank c = true := by
  refine ⟨cs.takeWhile isBlank, (cs.dropWhile isBlank).rtakeWhile isBlank, ?_,
    fun c member => List.mem_takeWhile_imp member, fun c member => List.mem_rtakeWhile_imp member⟩
  rw [strip_eq, List.rdropWhile_append_rtakeWhile, List.takeWhile_append_dropWhile]

theorem hasEdges_strip (cs : List Char) : Itq.HasEdges (strip cs) := by
  rw [strip_eq]
  refine ⟨fun c first => ?_, isBlank_last _⟩
  obtain ⟨after, same⟩ := List.rdropWhile_prefix isBlank (cs.dropWhile isBlank)
  have front := List.head?_dropWhile_not isBlank cs
  rw [← same, List.head?_append, Option.mem_def.mp first] at front
  exact front

theorem strip_of_hasEdges {cs : List Char} (edges : Itq.HasEdges cs) : strip cs = cs := by
  cases cs with
  | nil => rfl
  | cons c cs =>
    have front : (c :: cs).dropWhile isBlank = c :: cs :=
      List.dropWhile_cons_of_neg (by rw [edges.first c rfl]; exact Bool.false_ne_true)
    rw [strip_eq, front, List.rdropWhile_eq_self_iff]
    intro filled blank
    rw [edges.last _ (List.getLast?_eq_some_getLast filled)] at blank
    cases blank

end RecordQuery.Text

namespace RecordQuery.Itq

/-! ## Edges of tokens -/

variable [CharacterNames]

/-- No token begins or ends with a blank. -/
theorem Spells.hasEdges {cs : List Char} {t : Token} (spells : Spells cs t) : HasEdges cs := by
  cases spells with
  | integer negative whole =>
    exact hasEdges_of_isUnquoted (isUnquoted_signed negative whole.isUnquoted)
  | float negative whole part =>
    exact hasEdges_of_isUnquoted (isUnquoted_signed negative (isUnquoted_decimal whole part))
  | string closed decodes => exact hasEdges_between (by decide) _
  | markedName filled unmarked => exact hasEdges_between (by decide) _
  | name shape free => exact hasEdges_of_isUnquoted shape.isUnquoted
  | keyword shape reserved => exact hasEdges_of_isUnquoted shape.isUnquoted
  | symbol s =>
    have printed : s.spelling.toList.all (fun c => !Text.isBlank c) = true := by cases s <;> decide
    exact hasEdges_of_all fun c member => by simpa using List.all_eq_true.mp printed c member

/-- A lexeme that begins with a blank is a gap of blanks alone. -/
theorem Lexeme.IsSpelled.of_isBlank {c : Char} {cs : List Char} {token? : Option Token}
    (spelled : Lexeme.IsSpelled ⟨c :: cs, token?⟩) (blank : Text.isBlank c = true) :
    token? = none ∧ ∀ d ∈ cs, Text.isBlank d = true := by
  cases spelled with
  | token spells =>
    have first := spells.hasEdges.first c rfl
    rw [blank] at first
    cases first
  | gap gap =>
    refine ⟨rfl, ?_⟩
    cases gap with
    | blank => exact List.forall_mem_nil _
    | tab => exact List.forall_mem_nil _
    | lineFeeds more =>
      intro d member
      rw [List.eq_of_mem_replicate member]
      decide
    | comment line => cases blank

namespace IsLexed

variable {cs : List Char} {lexemes : List Lexeme}

/-- Blanks in front of a text spell no tokens. -/
theorem exists_dropWhile (lexed : IsLexed cs lexemes) :
    ∃ later, IsLexed (cs.dropWhile Text.isBlank) later ∧
      Lexeme.tokens later = Lexeme.tokens lexemes := by
  induction lexed with
  | nil => exact ⟨[], .nil, rfl⟩
  | @cons c more after token? lexemes front later ih =>
    by_cases blank : Text.isBlank c = true
    · have spelled := (IsLexed.cons front later).spelled _ List.mem_cons_self
      obtain ⟨rfl, all⟩ := spelled.of_isBlank blank
      rw [List.dropWhile_cons_of_pos blank, List.dropWhile_append_of_pos all]
      exact ih
    · rw [List.dropWhile_cons_of_neg blank]
      exact ⟨_, .cons front later, rfl⟩

theorem tokens_of_isBlank (lexed : IsLexed cs lexemes) (blank : ∀ c ∈ cs, Text.isBlank c = true) :
    Lexeme.tokens lexemes = [] := by
  obtain ⟨later, rest, same⟩ := lexed.exists_dropWhile
  rw [List.dropWhile_eq_nil_iff.mpr blank] at rest
  cases rest
  exact same.symm

theorem comment (line : ∀ c ∈ cs, c ≠ '\n') :
    IsLexed ('-' :: '-' :: cs) [⟨'-' :: '-' :: cs, none⟩] := by
  have whole : (cs ++ []).takeWhile (· != '\n') = cs :=
    takeWhile_append_of_ends (fun c member => bne_iff_ne.mpr (line c member))
      fun _ first => nomatch first
  have front : (Piece.atFront '-' ('-' :: cs ++ [])).taken? = some (none, ('-' :: cs).length) :=
    congrArg (fun line : List Char => some (none, line.length + 1)) whole
  have lexed := IsLexed.cons front .nil
  rwa [List.append_nil] at lexed

/-- A lexeme of which the end is blank is a gap, and what stands before the end is one of its
own. -/
theorem of_blank_end {c : Char} {kept blanks : List Char} {token? : Option Token}
    (spelled : Lexeme.IsSpelled ⟨c :: (kept ++ blanks), token?⟩) (filled : blanks ≠ [])
    (blank : ∀ d ∈ blanks, Text.isBlank d = true)
    (ends : ∀ d ∈ (c :: kept).getLast?, Text.isBlank d = false) :
    token? = none ∧ IsLexed (c :: kept) [⟨c :: kept, none⟩] := by
  obtain ⟨others, last, rfl⟩ := (List.eq_nil_or_concat blanks).resolve_left filled
  rw [List.concat_eq_append] at spelled blank
  cases spelled with
  | token spells =>
    rw [← List.append_assoc, ← List.cons_append] at spells
    have closing := spells.hasEdges.last last List.getLast?_concat
    rw [blank last (List.mem_append_right _ List.mem_cons_self)] at closing
    cases closing
  | gap gap =>
    refine ⟨rfl, ?_⟩
    generalize whole : c :: (kept ++ (others ++ [last])) = lexeme at gap
    cases gap with
    | blank => simp at whole
    | tab => simp at whole
    | lineFeeds more =>
      have feeds : ∀ d ∈ c :: kept, d = '\n' := by
        intro d member
        refine List.eq_of_mem_replicate (n := more + 1) ?_
        rw [List.replicate_succ, ← whole, ← List.cons_append]
        exact List.mem_append_left _ member
      have closing := ends _ (List.getLast?_eq_some_getLast (List.cons_ne_nil c kept))
      rw [feeds _ (List.getLast_mem _)] at closing
      cases closing
    | comment line =>
      obtain ⟨rfl, rest⟩ := List.cons.inj whole
      cases kept with
      | nil =>
        rw [List.nil_append] at rest
        rw [rest] at blank
        cases blank '-' List.mem_cons_self
      | cons d kept =>
        obtain ⟨rfl, rfl⟩ := List.cons.inj rest
        exact comment fun d member => line d (List.mem_append_left _ member)

/-- Blanks behind a text spell no tokens. -/
theorem exists_of_append {kept blanks : List Char} (lexed : IsLexed (kept ++ blanks) lexemes)
    (blank : ∀ c ∈ blanks, Text.isBlank c = true)
    (ends : ∀ c ∈ kept.getLast?, Text.isBlank c = false) :
    ∃ shorter, IsLexed kept shorter ∧ Lexeme.tokens shorter = Lexeme.tokens lexemes := by
  generalize whole : kept ++ blanks = cs at lexed
  induction lexed generalizing kept with
  | nil =>
    obtain ⟨rfl, -⟩ := List.append_eq_nil_iff.mp whole
    exact ⟨[], .nil, rfl⟩
  | @cons c more after token? lexemes front later ih =>
    have lexed := IsLexed.cons front later
    cases kept with
    | nil =>
      rw [List.nil_append] at whole
      rw [← whole] at lexed
      exact ⟨[], .nil, (lexed.tokens_of_isBlank blank).symm⟩
    | cons d kept =>
      rw [List.cons_append] at whole
      obtain ⟨rfl, split⟩ := List.cons.inj whole
      rcases Nat.lt_or_ge kept.length more.length with reached | within
      · -- The lexeme goes on into the blanks.
        obtain ⟨blanks', rfl⟩ : kept <+: more :=
          List.prefix_of_prefix_length_le ⟨blanks, split⟩ (List.prefix_append more after) reached.le
        rw [List.append_assoc] at split
        obtain rfl := List.append_cancel_left split
        have filled : blanks' ≠ [] := by
          rintro rfl
          simp at reached
        obtain ⟨rfl, alone⟩ := of_blank_end (lexed.spelled _ List.mem_cons_self) filled
          (fun e member => blank e (List.mem_append_left _ member)) ends
        have nothing :=
          later.tokens_of_isBlank fun e member => blank e (List.mem_append_right _ member)
        exact ⟨_, alone, nothing.symm⟩
      · obtain ⟨rest, rfl⟩ : more <+: kept :=
          List.prefix_of_prefix_length_le (List.prefix_append more after) ⟨blanks, split⟩ within
        rw [List.append_assoc] at split
        obtain rfl := List.append_cancel_left split
        rw [← List.append_assoc] at front
        have alone := Piece.standsAlone_atFront d _ _ _ _ front (by simp)
        have behind : ∀ e ∈ rest.getLast?, Text.isBlank e = false := by
          intro e last
          refine ends e ?_
          rw [← List.cons_append, List.getLast?_append, last]
          rfl
        obtain ⟨shorter, taken, same⟩ := ih behind rfl
        exact ⟨_, .cons alone taken, by rw [Lexeme.tokens_cons, Lexeme.tokens_cons, same]⟩

end IsLexed

/-- Without the blanks around it a text has the same tokens. -/
theorem IsLexed.exists_strip {cs : List Char} {lexemes : List Lexeme} (lexed : IsLexed cs lexemes) :
    ∃ stripped, IsLexed (Text.strip cs) stripped ∧
      Lexeme.tokens stripped = Lexeme.tokens lexemes := by
  obtain ⟨later, rest, same⟩ := lexed.exists_dropWhile
  rw [Text.strip_eq]
  generalize cs.dropWhile Text.isBlank = kept at rest ⊢
  have split := List.rdropWhile_append_rtakeWhile (p := Text.isBlank) (l := kept)
  rw [← split] at rest
  obtain ⟨stripped, taken, same'⟩ :=
    rest.exists_of_append (fun c member => List.mem_rtakeWhile_imp member) (Text.isBlank_last kept)
  exact ⟨stripped, taken, same'.trans same⟩

end RecordQuery.Itq
