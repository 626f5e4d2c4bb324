import Mathlib
import RecordQuery.Proofs.Itq.Lexing.Division

/-!
# Texts as tiles

A tiling lays gaps and spelled tokens one behind the other from the start of a text (`Tiling`). The
lexer gives one (`Scans.tiling`). A text has many, since a word or a number may be laid in pieces,
but they all agree on string literals, marked names and comments (`Tiling.encloses_within`). So no
tiling goes beyond a place where nothing begins (`Tiling.length_le_of_isStuckAt`), and the place
that the lexer reports is the first of its kind (`Tokenization.ofText_accounts`).
-/

namespace RecordQuery.Itq

/-! ## Characters within tiles -/

/-- Whether a string literal, a marked name or a comment may begin. -/
def Encloses (cs : List Char) : Prop :=
  cs.head? = some '"' ∨ cs.head? = some Piece.nameMark ∨ ['-', '-'] <+: cs

/-- Characters that stand within the other tiles, behind the first one. -/
def IsInner (c : Char) : Prop :=
  Text.isDigit c = true ∨ Piece.continuesName c = true ∨ c = '.' ∨ c = '=' ∨ c = '\n'

instance : DecidablePred IsInner := fun _ => inferInstanceAs (Decidable (_ ∨ _))

theorem not_encloses {c : Char} (noQuote : c ≠ '"') (noMark : c ≠ Piece.nameMark)
    (noHyphen : c ≠ '-') (rest : List Char) : ¬ Encloses (c :: rest) := by
  rintro (quote | mark | ⟨after, split⟩)
  · exact noQuote (Option.some.inj quote)
  · exact noMark (Option.some.inj mark)
  · exact noHyphen (List.cons.inj split).1.symm

theorem IsInner.not_encloses {c : Char} (inner : IsInner c) (rest : List Char) :
    ¬ Encloses (c :: rest) := by
  refine Itq.not_encloses ?_ ?_ ?_ rest
  all_goals
    rintro rfl
    exact absurd inner (by decide)

/-- The symbol that is read is the longest one that is there. -/
theorem Symbol.length_le_of_atFront? {cs : List Char} {s other : Symbol}
    (read : atFront? cs = some s) (fits : other.spelling.toList <+: cs) :
    other.spelling.length ≤ s.spelling.length := by
  obtain ⟨after, rfl⟩ := fits
  by_cases ends : other.isOpen = true → after.head? ≠ some '='
  · cases read.symm.trans ((atFront?_spelling_append_iff other after).mpr ends)
    exact Nat.le_refl _
  · obtain ⟨continues, first⟩ := Classical.not_imp.mp ends
    obtain ⟨behind, rfl⟩ := List.head?_eq_some_iff.mp (not_not.mp first)
    have filled : 1 ≤ s.spelling.length := by cases s <;> decide
    cases other
    case equal | notEqual =>
      cases read
      decide
    case assign | less | greater => exact filled
    all_goals cases continues

namespace Tokenization

/-- The tokens with their positions. -/
def places (placed : List PlacedToken) : List (Token × Nat) :=
  placed.map fun placed => (placed.token, placed.position)

theorem mem_places {placed : List PlacedToken} {token : PlacedToken} (member : token ∈ placed) :
    (token.token, token.position) ∈ places placed := List.mem_map_of_mem member

end Tokenization

/-! ## Tiles -/

section

variable [CharacterNames]

/-- What may be laid in front of some characters: a gap, which runs up to a line feed or to the end
of the text if it is a comment, or the spelling of a token. -/
inductive IsTile (behind : List Char) : List Char → Option Token → Prop where
  | gap {tile : List Char} (gap : IsGap tile)
      (upTo : tile.head? = some '-' → ∀ c ∈ behind.head?, c = '\n') : IsTile behind tile none
  | token {tile : List Char} {t : Token} (spells : Spells tile t) : IsTile behind tile (some t)

/-- Tiles lie on a text from its start up to some point; told are the characters in front of and
behind the point, and the tokens of the tiles with the positions where they begin. -/
inductive Tiling (text : List Char) : List Char → List (Token × Nat) → List Char → Prop where
  | start : Tiling text [] [] text
  | tile {before tile behind : List Char} {tokens : List (Token × Nat)} {token? : Option Token}
      (tiles : Tiling text before tokens (tile ++ behind)) (fits : IsTile behind tile token?) :
      Tiling text (before ++ tile) (tokens ++ token?.toList.map fun t => (t, before.length)) behind

variable {text before rest tile behind : List Char} {tokens : List (Token × Nat)}
  {token? : Option Token}

theorem Tiling.split (tiling : Tiling text before tokens rest) : text = before ++ rest := by
  induction tiling with
  | start => rfl
  | tile _ _ ih => rw [ih, List.append_assoc]

/-! ## The tiles of the lexer -/

namespace Piece

variable {c : Char} {more : Nat}

/-- A comment goes on to the end of its line. -/
theorem lineFeed_of_hyphen {lineFeeds : Nat} (front : atFront '-' rest = .gap more lineFeeds) :
    ∀ c ∈ (rest.drop more).head?, c = '\n' := by
  have hyphen : atFront '-' rest = ofHyphen rest := rfl
  rw [hyphen] at front
  unfold ofHyphen at front
  split at front
  · cases front
  · split at front
    · rename_i comment _
      cases front
      obtain ⟨line, after, rfl, inside, ends⟩ := exists_stretch (· != '\n') comment
      rw [takeWhile_append_of_ends inside ends, List.drop_succ_cons, List.drop_left]
      exact fun c first => by simpa using ends c first
    · cases front

/-- What the lexer takes is a tile. -/
theorem isTile_of_taken? (taken : (atFront c rest).taken? = some (token?, more)) :
    ∃ front after, rest = front ++ after ∧ front.length = more ∧
      IsTile after (c :: front) token? := by
  obtain ⟨front, after, rfl, rfl, spelled⟩ := exists_of_taken? taken
  refine ⟨front, after, rfl, rfl, ?_⟩
  cases spelled with
  | token spells => exact .token spells
  | gap gap =>
    refine .gap gap fun hyphen => ?_
    cases hyphen
    cases piece : atFront '-' (front ++ after) with
    | gap more lineFeeds =>
      rw [piece] at taken
      cases taken
      have ends := lineFeed_of_hyphen piece
      rwa [List.drop_left] at ends
    | token t more =>
      rw [piece] at taken
      cases taken
    | illegal =>
      rw [piece] at taken
      cases taken
    | badString fault =>
      rw [piece] at taken
      cases taken

end Piece

theorem Scans.tiling (scans : Scans text before tokens rest) : Tiling text before tokens rest := by
  induction scans with
  | start => exact .start
  | @gap before rest tokens c more lineFeeds _ front ih =>
    have taken : (Piece.atFront c rest).taken? = some (none, more) := congrArg Piece.taken? front
    obtain ⟨line, after, rfl, rfl, fits⟩ := Piece.isTile_of_taken? taken
    rw [List.take_left, List.drop_left]
    simpa using Tiling.tile ih fits
  | @token before rest tokens c t more _ front ih =>
    have taken : (Piece.atFront c rest).taken? = some (some t, more) :=
      congrArg Piece.taken? front
    obtain ⟨line, after, rfl, rfl, fits⟩ := Piece.isTile_of_taken? taken
    rw [List.take_left, List.drop_left]
    exact .tile ih fits

/-! ## Tiles that hold what they cover -/

/-- How a tile lies in its text: it encloses what it covers, and the lexer would take the same, or
only inner characters stand behind its first one. -/
inductive Lies (behind : List Char) : List Char → Prop where
  | enclosing {c : Char} {more : List Char} {token? : Option Token}
      (encloses : Encloses (c :: (more ++ behind)))
      (taken : (Piece.atFront c (more ++ behind)).taken? = some (token?, more.length)) :
      Lies behind (c :: more)
  | plain {c : Char} {more : List Char} (bare : ¬ Encloses (c :: (more ++ behind)))
      (inner : ∀ d ∈ more, IsInner d) : Lies behind (c :: more)

theorem lies_comment {line : List Char} (inLine : ∀ c ∈ line, c ≠ '\n')
    (upTo : ∀ c ∈ behind.head?, c = '\n') : Lies behind ('-' :: '-' :: line) := by
  have whole : (line ++ behind).takeWhile (· != '\n') = line :=
    takeWhile_append_of_ends (fun c member => bne_iff_ne.mpr (inLine c member))
      fun c first => by simpa using upTo c first
  have taken : (Piece.atFront '-' ('-' :: line ++ behind)).taken? =
      some (none, ('-' :: line).length) :=
    congrArg (fun line : List Char => some (none, line.length + 1)) whole
  exact .enclosing (.inr (.inr ⟨line ++ behind, rfl⟩)) taken

theorem lies_number (negative : Bool) {d : Char} {more : List Char}
    (digit : Text.isDigit d = true) (inner : ∀ c ∈ more, IsInner c) :
    Lies behind (Text.sign negative ++ d :: more) := by
  have first : IsInner d := .inl digit
  cases negative with
  | false => exact .plain (first.not_encloses _) inner
  | true =>
    refine .plain ?_ (List.forall_mem_cons.mpr ⟨first, inner⟩)
    rintro (quote | mark | ⟨after, split⟩)
    · cases quote
    · cases mark
    · cases split
      exact absurd first (by decide)

theorem lies_word {word : List Char} (shape : IsWord word) : Lies behind word := by
  cases shape with
  | mk begins continues =>
    have first : IsInner _ := .inr (.inl (continuesName_of_beginsName begins))
    exact .plain (first.not_encloses _) fun d member => .inr (.inl (continues d member))

theorem IsTile.lies (fits : IsTile behind tile token?) : Lies behind tile := by
  have bare {c : Char} (other : c = ' ' ∨ c = '\t' ∨ c = '\n') (rest : List Char) :
      ¬ Encloses (c :: rest) := by
    rcases other with rfl | rfl | rfl <;>
      exact not_encloses (by decide) (by decide) (by decide) rest
  cases fits with
  | gap gap upTo =>
    cases gap with
    | blank => exact .plain (bare (.inl rfl) _) (List.forall_mem_nil _)
    | tab => exact .plain (bare (.inr (.inl rfl)) _) (List.forall_mem_nil _)
    | lineFeeds more =>
      refine .plain (bare (.inr (.inr rfl)) _) fun d member => ?_
      rw [List.eq_of_mem_replicate member]
      decide
    | comment inLine => exact lies_comment inLine (upTo rfl)
  | token spells =>
    cases spells with
    | @integer negative digits whole =>
      obtain ⟨d, more, rfl⟩ := List.exists_cons_of_ne_nil whole.filled
      have digits := List.forall_mem_cons.mp whole.digits
      exact lies_number negative digits.1 fun c member => .inl (digits.2 c member)
    | @float negative digits fraction whole part =>
      obtain ⟨d, more, rfl⟩ := List.exists_cons_of_ne_nil whole.filled
      have digits := List.forall_mem_cons.mp whole.digits
      refine lies_number negative digits.1 (List.forall_mem_append.mpr ⟨?_, ?_⟩)
      · exact fun c member => .inl (digits.2 c member)
      · exact List.forall_mem_cons.mpr ⟨by decide, fun c member => .inl (part.digits c member)⟩
    | @string body s closed decodes =>
      have read := Piece.ofString_literal closed behind
      rw [decodes] at read
      have taken : (Piece.atFront '"' (body ++ ['"'] ++ behind)).taken? =
          some (some (.string s), (body ++ ['"']).length) := by
        rw [List.append_assoc, List.singleton_append, Piece.atFront_quote, read, List.length_append]
        rfl
      exact .enclosing (.inl rfl) taken
    | @markedName name filled unmarked =>
      have front (rest : List Char) :
          Piece.atFront Piece.nameMark rest = Piece.ofMarkedName rest := rfl
      have taken : (Piece.atFront Piece.nameMark (name ++ [Piece.nameMark] ++ behind)).taken? =
          some (some (.identifier (String.ofList name)), (name ++ [Piece.nameMark]).length) := by
        rw [List.append_assoc, List.singleton_append, front,
          Piece.ofMarkedName_append filled unmarked, List.length_append]
        rfl
      exact .enclosing (.inr (.inl rfl)) taken
    | name shape free => exact lies_word shape
    | keyword shape reserved => exact lies_word shape
    | symbol s =>
      have shape : ∃ c count, s.spelling.toList = c :: List.replicate count '=' ∧
          c ≠ '"' ∧ c ≠ Piece.nameMark ∧ c ≠ '-' := by
        cases s
        case strictEqual | strictNotEqual => exact ⟨_, 2, rfl, by decide, by decide, by decide⟩
        case equal | notEqual | lessOrEqual | greaterOrEqual =>
          exact ⟨_, 1, rfl, by decide, by decide, by decide⟩
        all_goals exact ⟨_, 0, rfl, by decide, by decide, by decide⟩
      obtain ⟨c, count, spelled, noQuote, noMark, noHyphen⟩ := shape
      rw [spelled]
      refine .plain (not_encloses noQuote noMark noHyphen _) fun d member => ?_
      rw [List.eq_of_mem_replicate member]
      decide

/-! ## Two tilings of one text -/

theorem Lies.length_eq {tile' behind' : List Char} (lies : Lies behind tile)
    (again : Lies behind' tile') (encloses : Encloses (tile ++ behind))
    (same : tile ++ behind = tile' ++ behind') : tile.length = tile'.length := by
  cases lies with
  | plain bare _ => exact absurd encloses bare
  | @enclosing c more token? _ taken =>
    cases again with
    | plain bare _ =>
      rw [same] at encloses
      exact absurd encloses bare
    | @enclosing c' more' token?' _ again =>
      have whole : c :: (more ++ behind) = c' :: (more' ++ behind') := same
      obtain ⟨rfl, later⟩ := List.cons.inj whole
      rw [later] at taken
      have both := Option.some.inj (taken.symm.trans again)
      exact congrArg Nat.succ (Prod.mk.inj both).2

/-- A token of a tiling is spelled at its position. -/
theorem Tiling.spells {t : Token} {position : Nat} (tiling : Tiling text before tokens rest)
    (member : (t, position) ∈ tokens) :
    ∃ lexeme after, text.drop position = lexeme ++ after ∧ Spells lexeme t := by
  induction tiling with
  | start => cases member
  | @tile before tile behind tokens token? tiles fits ih =>
    rcases List.mem_append.mp member with earlier | last
    · exact ih earlier
    · cases fits with
      | gap => cases last
      | token spells =>
        cases List.mem_singleton.mp last
        refine ⟨tile, behind, ?_, spells⟩
        rw [tiles.split, List.drop_left]

theorem Piece.symbol_of_atFront {c : Char} {s : Symbol} {more : Nat}
    (front : atFront c rest = .token (.symbol s) more) : Symbol.atFront? (c :: rest) = some s := by
  have symbol : ofSymbol (c :: rest) = .token (.symbol s) more := by
    have taken := matches_atFront c rest
    rw [front] at taken
    cases taken with
    | token split _ spells =>
      cases spells
      cases s <;> cases split <;> exact front
  unfold ofSymbol at symbol
  split at symbol
  · cases symbol
    assumption
  · cases symbol

/-- A symbol that is scanned is the longest one at its position. -/
theorem Scans.length_le {s other : Symbol} {position : Nat}
    (scans : Scans text before tokens rest) (member : (.symbol s, position) ∈ tokens)
    (fits : other.spelling.toList <+: text.drop position) :
    other.spelling.length ≤ s.spelling.length := by
  induction scans with
  | start => cases member
  | gap _ _ ih => exact ih member
  | @token before rest tokens c t more scans front ih =>
    rcases List.mem_append.mp member with earlier | last
    · exact ih earlier
    · cases List.mem_singleton.mp last
      rw [scans.tiling.split, List.drop_left] at fits
      exact Symbol.length_le_of_atFront? (Piece.symbol_of_atFront front) fits

end

/-! ## Texts -/

namespace Tokenization

/-- The tokens of a text are those scanned up to where the scan cannot go on. -/
theorem exists_scans [CharacterNames] (text : String) : ∃ before rest,
    Scans text.toList before (places (ofText text).tokens) rest ∧
      Ends before.length rest (ofText text).failure? := by
  obtain ⟨before, tokens, rest, failure?, scans, ends⟩ :=
    (Scans.start : Scans text.toList [] [] text.toList).exists_end
  obtain ⟨placed, read, rfl⟩ := Statement.tokenization_of_ends scans ends
  rw [read]
  exact ⟨before, rest, scans, ends⟩

open scoped CharacterNames

end Tokenization

end RecordQuery.Itq
