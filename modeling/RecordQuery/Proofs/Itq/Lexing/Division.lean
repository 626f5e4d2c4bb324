import Mathlib
import RecordQuery.Proofs.Itq.Failure
import RecordQuery.Proofs.Itq.Lexing.Cutting

/-!
# Texts as lexemes

A text that is read to its end falls into lexemes (`IsLexed`), which are gaps and spelled tokens.
Its tokens are those of its lexemes (`isTokenized_iff`), each with the place where its lexeme begins
(`IsLexed.ofRest_eq_place`), and a text may be cut between any two lexemes into texts that the lexer
takes apart in the same way (`IsLexed.of_append`).
-/

namespace RecordQuery.Itq

/-! ## Lexemes -/

/-- What the lexer takes from a text at once: its characters, and the token that they spell unless
they are a gap. -/
structure Lexeme where
  text : List Char
  token? : Option Token
  deriving DecidableEq, Repr

namespace Lexeme

/-- The characters of lexemes that stand one behind the other. -/
def join (lexemes : List Lexeme) : List Char := lexemes.flatMap text

/-- The tokens that lexemes spell. -/
def tokens (lexemes : List Lexeme) : List Token := lexemes.filterMap token?

/-- A semicolon. -/
def semicolon : Lexeme := ⟨[';'], some (.symbol .semicolon)⟩

/-- The lexeme is a comment. -/
def IsComment (lexeme : Lexeme) : Prop := lexeme.token? = none ∧ lexeme.text.head? = some '-'

/-- The lexeme is a marked name. -/
def IsMarkedName (lexeme : Lexeme) : Prop := lexeme.text.head? = some Piece.nameMark

instance : DecidablePred IsComment := fun _ => inferInstanceAs (Decidable (_ ∧ _))

instance : DecidablePred IsMarkedName := fun _ => inferInstanceAs (Decidable (_ = _))

theorem tokens_cons (lexeme : Lexeme) (lexemes : List Lexeme) :
    tokens (lexeme :: lexemes) = lexeme.token?.toList ++ tokens lexemes := by
  unfold tokens
  cases told : lexeme.token? with
  | none => rw [List.filterMap_cons_none told]; rfl
  | some t => rw [List.filterMap_cons_some told]; rfl

theorem join_append (lexemes others : List Lexeme) :
    join (lexemes ++ others) = join lexemes ++ join others := List.flatMap_append

/-- The tokens of lexemes that begin at a position on a line: the line feeds of a gap begin new
lines, those within a token do not. -/
def place (position line : Nat) : List Lexeme → List PlacedToken
  | [] => []
  | ⟨cs, none⟩ :: later => place (position + cs.length) (line + cs.count '\n') later
  | ⟨cs, some t⟩ :: later => ⟨t, line, position⟩ :: place (position + cs.length) line later

theorem map_token_place (position line : Nat) (lexemes : List Lexeme) :
    (place position line lexemes).map (·.token) = tokens lexemes := by
  induction lexemes generalizing position line with
  | nil => rfl
  | cons lexeme lexemes ih =>
    obtain ⟨cs, token?⟩ := lexeme
    cases token? with
    | none => exact ih _ _
    | some t => exact congrArg (t :: ·) (ih _ _)

end Lexeme

/-! ## The lexemes of the lexer -/

variable [CharacterNames]

namespace Lexeme

/-- The lexemes of the rest of a text, whose first `skip` characters belong to what is before. -/
def ofRest (skip : Nat) : List Char → List Lexeme
  | [] => []
  | c :: rest =>
    match skip with
    | skip + 1 => ofRest skip rest
    | 0 => match (Piece.atFront c rest).taken? with
      | some (token?, more) => ⟨c :: rest.take more, token?⟩ :: ofRest more rest
      | none => []

/-- The lexemes of a text, up to its end or to where nothing can be read. -/
def ofText (text : String) : List Lexeme := ofRest 0 text.toList

/-- A lexeme is a gap or spells its token. -/
inductive IsSpelled : Lexeme → Prop where
  | gap {cs : List Char} (gap : IsGap cs) : IsSpelled ⟨cs, none⟩
  | token {cs : List Char} {t : Token} (spells : Spells cs t) : IsSpelled ⟨cs, some t⟩

theorem IsSpelled.eq_semicolon {lexeme : Lexeme} (spelled : lexeme.IsSpelled)
    (token : lexeme.token? = some (.symbol .semicolon)) : lexeme = semicolon := by
  cases spelled with
  | gap => cases token
  | token spells =>
    cases token
    cases spells
    rfl

theorem ofRest_skip (skip : Nat) (cs : List Char) : ofRest skip cs = ofRest 0 (cs.drop skip) := by
  induction cs generalizing skip with
  | nil =>
    rw [List.drop_nil]
    rfl
  | cons c cs ih =>
    cases skip with
    | zero => rfl
    | succ skip => exact ih skip

theorem ofRest_zero_cons (c : Char) (rest : List Char) :
    ofRest 0 (c :: rest) = match (Piece.atFront c rest).taken? with
      | some (token?, more) => ⟨c :: rest.take more, token?⟩ :: ofRest 0 (rest.drop more)
      | none => [] := by
  rw [ofRest]
  split
  · rw [ofRest_skip]
  · rfl

end Lexeme

namespace Piece

variable {c : Char} {rest : List Char} {token? : Option Token} {more : Nat}

/-- What is taken is a piece of the text, and it is a gap or spells its token. -/
theorem exists_of_taken? (taken : (atFront c rest).taken? = some (token?, more)) :
    ∃ front after, rest = front ++ after ∧ front.length = more ∧
      Lexeme.IsSpelled ⟨c :: front, token?⟩ := by
  have read := matches_atFront c rest
  generalize atFront c rest = piece at taken read
  cases read with
  | @gap lexeme after more' lineFeeds split length gap =>
    cases taken
    obtain ⟨d, front, rfl⟩ := List.exists_cons_of_length_eq_add_one length
    cases split
    exact ⟨front, after, rfl, Nat.succ.inj length, .gap gap⟩
  | @token lexeme after t more' split length spells =>
    cases taken
    obtain ⟨d, front, rfl⟩ := List.exists_cons_of_length_eq_add_one length
    cases split
    exact ⟨front, after, rfl, Nat.succ.inj length, .token spells⟩
  | badString split closed malformed => cases taken
  | illegal => cases taken

/-- A gap counts the line feeds that it holds. -/
theorem lineFeeds_of_gap {lineFeeds : Nat} (front : atFront c rest = .gap more lineFeeds) :
    lineFeeds = (c :: rest.take more).count '\n' := by
  have read := matches_atFront c rest
  rw [front] at read
  cases read with
  | @gap lexeme after _ _ split length gap =>
    have taken : c :: rest.take more = lexeme := by
      rw [← List.take_succ_cons, split, List.take_left' length]
    rw [taken]
    cases gap with
    | blank =>
      cases split
      cases front
      rfl
    | tab =>
      cases split
      cases front
      rfl
    | lineFeeds feeds =>
      cases split
      have counted : lineFeeds = more + 1 := by
        obtain ⟨same, next⟩ := Piece.gap.inj front
        rw [← same, ← next]
      have each : ∀ d ∈ '\n' :: List.replicate feeds '\n', '\n' = d := by
        intro d member
        rw [← List.replicate_succ] at member
        exact (List.eq_of_mem_replicate member).symm
      rw [counted, ← length, List.count_eq_length.mpr each]
    | @comment line inLine =>
      cases split
      have bare : '\n' ∉ '-' :: '-' :: line := by
        simpa using fun feed => inLine _ feed rfl
      rw [List.count_eq_zero.mpr bare]
      exact (Piece.gap.inj front).2.symm

end Piece

/-- The lexer takes the characters apart into the lexemes, up to their end. -/
inductive IsLexed : List Char → List Lexeme → Prop where
  | nil : IsLexed [] []
  | cons {c : Char} {more after : List Char} {token? : Option Token} {lexemes : List Lexeme}
      (front : (Piece.atFront c (more ++ after)).taken? = some (token?, more.length))
      (later : IsLexed after lexemes) :
      IsLexed (c :: (more ++ after)) (⟨c :: more, token?⟩ :: lexemes)

namespace IsLexed

variable {cs : List Char} {lexemes others : List Lexeme}

theorem spelled (lexed : IsLexed cs lexemes) : ∀ lexeme ∈ lexemes, lexeme.IsSpelled := by
  induction lexed with
  | nil => exact List.forall_mem_nil _
  | cons front _ ih =>
    obtain ⟨taken, after, split, length, spelled⟩ := Piece.exists_of_taken? front
    obtain ⟨rfl, -⟩ := List.append_inj split length.symm
    exact List.forall_mem_cons.mpr ⟨spelled, ih⟩

theorem join_eq (lexed : IsLexed cs lexemes) : Lexeme.join lexemes = cs := by
  induction lexed with
  | nil => rfl
  | @cons c more after token? lexemes _ _ ih =>
    have split : Lexeme.join (⟨c :: more, token?⟩ :: lexemes) =
        c :: more ++ Lexeme.join lexemes := rfl
    rw [split, ih]
    rfl

/-- The lexemes in front make a text of their own, and so do those behind them. -/
theorem of_append (lexed : IsLexed cs (lexemes ++ others)) :
    IsLexed (Lexeme.join lexemes) lexemes ∧ IsLexed (Lexeme.join others) others := by
  induction lexemes generalizing cs with
  | nil =>
    have behind := lexed.join_eq
    rw [List.nil_append] at lexed behind
    rw [behind]
    exact ⟨.nil, lexed⟩
  | cons lexeme lexemes ih =>
    cases lexed with
    | @cons c more after token? _ front later =>
      obtain ⟨before, behind⟩ := ih later
      have split : after = Lexeme.join lexemes ++ Lexeme.join others :=
        later.join_eq.symm.trans (Lexeme.join_append lexemes others)
      rw [split, ← List.append_assoc] at front
      have alone := Piece.standsAlone_atFront c _ _ _ _ front (by simp)
      exact ⟨.cons alone before, behind⟩

end IsLexed

/-! ## The tokens of a text -/

namespace IsLexed

variable {cs : List Char} {lexemes : List Lexeme}

/-- The lexer places the tokens of the lexemes that it takes. -/
theorem ofRest_eq_place (lexed : IsLexed cs lexemes) (position line : Nat) :
    Tokenization.ofRest 0 position line cs = ⟨Lexeme.place position line lexemes, none⟩ := by
  induction lexed generalizing position line with
  | nil => rfl
  | @cons c more after token? lexemes front _ ih =>
    have further : position + 1 + more.length = position + (c :: more).length := by
      rw [List.length_cons]
      omega
    rw [Tokenization.ofRest_zero_cons]
    cases read : Piece.atFront c (more ++ after) with
    | gap length lineFeeds =>
      rw [read] at front
      cases front
      have feeds := Piece.lineFeeds_of_gap read
      rw [List.take_left] at feeds
      dsimp only
      rw [Tokenization.ofRest_skip, List.drop_left, List.take_left, further, feeds, ih]
      rfl
    | token t length =>
      rw [read] at front
      cases front
      dsimp only
      rw [Tokenization.ofRest_skip, List.drop_left, List.take_left, further, ih]
      rfl
    | illegal =>
      rw [read] at front
      cases front
    | badString fault =>
      rw [read] at front
      cases front

/-- A text that the lexer takes apart is read to its end, and its tokens are those of the
lexemes. -/
theorem ofRest_eq (lexed : IsLexed cs lexemes) (position line : Nat) :
    ∃ placed, Tokenization.ofRest 0 position line cs = ⟨placed, none⟩ ∧
      placed.map (·.token) = Lexeme.tokens lexemes :=
  ⟨_, lexed.ofRest_eq_place position line, Lexeme.map_token_place position line lexemes⟩

end IsLexed

namespace Tokenization

variable {c : Char} {rest : List Char} (position line : Nat)

/-- What is read behind a lexeme tells whether the text is read to its end. -/
theorem failure?_of_taken {token? : Option Token} {more : Nat}
    (taken : (Piece.atFront c rest).taken? = some (token?, more)) :
    ∃ position' line', (ofRest 0 position line (c :: rest)).failure? =
      (ofRest 0 position' line' (rest.drop more)).failure? := by
  rw [ofRest_zero_cons]
  generalize Piece.atFront c rest = piece at taken
  cases piece with
  | gap more lineFeeds =>
    cases taken
    dsimp only
    rw [ofRest_skip]
    exact ⟨_, _, rfl⟩
  | token t more =>
    cases taken
    dsimp only
    rw [ofRest_skip]
    exact ⟨_, _, rfl⟩
  | illegal => cases taken
  | badString fault => cases taken

theorem failure?_of_not_taken (stuck : (Piece.atFront c rest).taken? = none) :
    (ofRest 0 position line (c :: rest)).failure? ≠ none := by
  rw [ofRest_zero_cons]
  generalize Piece.atFront c rest = piece at stuck
  cases piece with
  | gap more lineFeeds => cases stuck
  | token t more => cases stuck
  | illegal => exact Option.some_ne_none _
  | badString fault => exact Option.some_ne_none _

end Tokenization

/-- A text that is read to its end is taken apart by the lexer. -/
theorem isLexed_ofRest {position line : Nat} {cs : List Char}
    (whole : (Tokenization.ofRest 0 position line cs).failure? = none) :
    IsLexed cs (Lexeme.ofRest 0 cs) := by
  induction size : cs.length using Nat.strong_induction_on generalizing cs position line with
  | _ n ih =>
    cases cs with
    | nil => exact .nil
    | cons c rest =>
      have lexemes := Lexeme.ofRest_zero_cons c rest
      cases taken : (Piece.atFront c rest).taken? with
      | none => exact absurd whole (Tokenization.failure?_of_not_taken position line taken)
      | some read =>
        obtain ⟨token?, more⟩ := read
        rw [taken] at lexemes
        obtain ⟨position', line', same⟩ := Tokenization.failure?_of_taken position line taken
        obtain ⟨front, after, rfl, rfl, -⟩ := Piece.exists_of_taken? taken
        rw [same, List.drop_left] at whole
        rw [lexemes]
        dsimp only
        rw [List.take_left, List.drop_left]
        refine .cons taken (ih _ ?_ whole rfl)
        rw [← size, List.length_cons, List.length_append]
        omega

/-- The text is read to its end, and these are its tokens. -/
def IsTokenized (text : String) (ts : List Token) : Prop :=
  ∃ placed, (Tokenization.ofText text).all = .ok placed ∧ placed.map (·.token) = ts

theorem IsTokenized.unique {text : String} {ts others : List Token} (read : IsTokenized text ts)
    (again : IsTokenized text others) : ts = others := by
  obtain ⟨placed, first, rfl⟩ := read
  obtain ⟨same, second, rfl⟩ := again
  cases first.symm.trans second
  rfl

theorem tokenization_of_isTokenized {text : String} {ts : List Token}
    (read : IsTokenized text ts) :
    ∃ placed, Tokenization.ofText text = ⟨placed, none⟩ ∧ placed.map (·.token) = ts := by
  obtain ⟨placed, all, rfl⟩ := read
  refine ⟨placed, ?_, rfl⟩
  unfold Tokenization.all at all
  generalize Tokenization.ofText text = tokenization at all ⊢
  obtain ⟨tokens, failure?⟩ := tokenization
  cases failure? with
  | none =>
    cases all
    rfl
  | some e => cases all

theorem IsLexed.isTokenized {text : String} {lexemes : List Lexeme}
    (lexed : IsLexed text.toList lexemes) : IsTokenized text (Lexeme.tokens lexemes) := by
  obtain ⟨placed, read, same⟩ := lexed.ofRest_eq 0 1
  refine ⟨placed, ?_, same⟩
  unfold Tokenization.all Tokenization.ofText
  rw [read]

/-- A text is read to its end just when its lexemes make it up. -/
theorem isTokenized_iff {text : String} {ts : List Token} : IsTokenized text ts ↔
    IsLexed text.toList (Lexeme.ofText text) ∧ Lexeme.tokens (Lexeme.ofText text) = ts := by
  constructor
  · intro read
    obtain ⟨placed, told, rfl⟩ := tokenization_of_isTokenized read
    have lexed : IsLexed text.toList (Lexeme.ofText text) :=
      isLexed_ofRest (congrArg Tokenization.failure? told)
    obtain ⟨again, same, tokens⟩ := lexed.ofRest_eq 0 1
    cases told.symm.trans same
    exact ⟨lexed, tokens.symm⟩
  · rintro ⟨lexed, rfl⟩
    exact lexed.isTokenized

/-! ## Statements -/

/-- A text is a statement just when it is read to its end, its tokens are those of the statement,
and the conditions pass their check. -/
theorem Statement.ofText_eq_ok {text : String} {s : Statement} : ofText text = .ok s ↔
    ∃ ts, IsTokenized text ts ∧ Grammar.IsStatement ts s ∧
      Condition.check s.conditions = .ok () := by
  constructor
  · intro accepted
    unfold ofText at accepted
    dsimp only at accepted
    split at accepted
    · cases accepted
    · rename_i spelled told
      split at accepted
      · cases accepted
      · rename_i whole
        cases checked : Condition.check spelled.conditions with
        | error e =>
          rw [checked] at accepted
          cases accepted
        | ok u =>
          rw [checked] at accepted
          cases accepted
          have all : (Tokenization.ofText text).all = .ok (Tokenization.ofText text).tokens := by
            rw [Tokenization.all, whole]
          exact ⟨_, ⟨_, all, rfl⟩, isStatement_of_ofTokens told, checked⟩
  · rintro ⟨ts, read, phrase, checked⟩
    obtain ⟨placed, scanned, rfl⟩ := tokenization_of_isTokenized read
    rw [ofText_of_phrase scanned phrase]
    dsimp only
    rw [checked]
    rfl

/-- The names among the tokens of a text are not empty. -/
theorem IsTokenized.identifier_ne {text : String} {ts : List Token} {name : String}
    (read : IsTokenized text ts) (member : .identifier name ∈ ts) : name ≠ "" := by
  obtain ⟨lexed, rfl⟩ := isTokenized_iff.mp read
  obtain ⟨lexeme, inside, token⟩ := List.mem_filterMap.mp member
  have spelled := lexed.spelled lexeme inside
  have filled : ∀ {cs : List Char}, cs ≠ [] → String.ofList cs ≠ "" := by
    intro cs filled same
    exact filled (String.ofList_injective same)
  cases spelled with
  | gap => cases token
  | token spells =>
    cases token
    cases spells with
    | markedName given _ => exact filled given
    | name shape _ =>
      cases shape with
      | mk => exact filled (List.cons_ne_nil _ _)

end RecordQuery.Itq
