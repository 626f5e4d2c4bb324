import Mathlib
import RecordQuery.Itq.Tokenization
import RecordQuery.Proofs.Text.Digits

/-!
# Lexemes

What the lexer takes from the front of a text is held against the patterns of its rules: gaps
(`IsGap`), the spellings of tokens (`Spells`) and string literals, whose escapes may be malformed
(`IsLiteral`). Whatever it takes matches a pattern (`Piece.matches_atFront`), and it stops just where
no pattern matches (`Piece.illegal_iff`).
-/

namespace RecordQuery.Itq

open Text (sign)

/-! ## Patterns -/

/-- What stands between tokens: a blank, a tab, line feeds, or a comment up to the end of its line. -/
inductive IsGap : List Char → Prop where
  | blank : IsGap [' ']
  | tab : IsGap ['\t']
  | lineFeeds (more : Nat) : IsGap ('\n' :: List.replicate more '\n')
  | comment {cs : List Char} (line : ∀ c ∈ cs, c ≠ '\n') : IsGap ('-' :: '-' :: cs)

/-- Decimal digits of any script, at least one. -/
structure IsDigits (cs : List Char) : Prop where
  filled : cs ≠ []
  digits : ∀ c ∈ cs, Text.isDigit c = true

/-- What may stand between the quotes of a string literal: a quote only behind a backslash, and
behind a backslash any character but a line feed. -/
inductive IsLiteralBody : List Char → Prop where
  | nil : IsLiteralBody []
  | escape {c : Char} {cs : List Char} (inLine : c ≠ '\n') (later : IsLiteralBody cs) :
      IsLiteralBody ('\\' :: c :: cs)
  | plain {c : Char} {cs : List Char} (noQuote : c ≠ '"') (noBackslash : c ≠ '\\')
      (later : IsLiteralBody cs) : IsLiteralBody (c :: cs)

/-- The literal with a body. -/
def literal (body : List Char) : List Char := '"' :: (body ++ ['"'])

/-- A string literal, whatever its escapes. -/
def IsLiteral (cs : List Char) : Prop := ∃ body, IsLiteralBody body ∧ cs = literal body

/-- A plain word: a letter or an underscore, then letters, digits and underscores of ASCII. -/
inductive IsWord : List Char → Prop where
  | mk {c : Char} {cs : List Char} (begins : Piece.beginsName c = true)
      (continues : ∀ d ∈ cs, Piece.continuesName d = true) : IsWord (c :: cs)

-- The test of all characters goes by the list: quantifying over its members would try every `Char`.
instance : DecidablePred IsWord
  | [] => .isFalse fun shape => nomatch shape
  | c :: cs =>
    decidable_of_iff (Piece.beginsName c = true ∧ cs.all Piece.continuesName = true)
      ⟨fun ⟨begins, continues⟩ => .mk begins (List.all_eq_true.mp continues),
        fun (.mk begins continues) => ⟨begins, List.all_eq_true.mpr continues⟩⟩

/-- The characters spell the token. -/
inductive Spells [CharacterNames] : List Char → Token → Prop where
  | integer (negative : Bool) {digits : List Char} (whole : IsDigits digits) :
      Spells (sign negative ++ digits) (.integer
        (if negative then -(Text.digitsValue digits : Int) else Text.digitsValue digits))
  | float (negative : Bool) {digits fraction : List Char} (whole : IsDigits digits)
      (part : IsDigits fraction) :
      Spells (sign negative ++ (digits ++ '.' :: fraction)) (.float (.ofDecimal negative
        ⟨Text.digitsValue (digits ++ fraction), -(fraction.length : Int)⟩))
  | string {body : List Char} {s : CodeText} (closed : IsLiteralBody body)
      (decodes : StringLiteral.decode body = .ok s) : Spells (literal body) (.string s)
  | markedName {name : List Char} (filled : name ≠ []) (unmarked : ∀ c ∈ name, c ≠ Piece.nameMark) :
      Spells (Piece.nameMark :: (name ++ [Piece.nameMark])) (.identifier (String.ofList name))
  | name {word : List Char} (shape : IsWord word)
      (free : Keyword.ofWord? (String.ofList word) = none) :
      Spells word (.identifier (String.ofList word))
  | keyword {word : List Char} {k : Keyword} (shape : IsWord word)
      (reserved : Keyword.ofWord? (String.ofList word) = some k) :
      Spells word (.keyword k (String.ofList word))
  | symbol (s : Symbol) : Spells s.spelling.toList (.symbol s)

/-- What one of the patterns matches: a gap, the spelling of a token, or a string literal. -/
def IsLexeme [CharacterNames] (cs : List Char) : Prop :=
  IsGap cs ∨ (∃ t, Spells cs t) ∨ IsLiteral cs

/-! ## Stretches of characters -/

section

variable {p : Char → Bool} {front after : List Char}

theorem takeWhile_append_of_ends (inside : ∀ c ∈ front, p c = true)
    (ends : ∀ c ∈ after.head?, p c = false) : (front ++ after).takeWhile p = front := by
  rw [List.takeWhile_append_of_pos inside]
  cases after with
  | nil => exact List.append_nil front
  | cons c after =>
    rw [List.takeWhile_cons_of_neg (by rw [ends c rfl]; exact Bool.false_ne_true), List.append_nil]

theorem dropWhile_append_of_ends (inside : ∀ c ∈ front, p c = true)
    (ends : ∀ c ∈ after.head?, p c = false) : (front ++ after).dropWhile p = after := by
  rw [List.dropWhile_append_of_pos inside]
  cases after with
  | nil => rfl
  | cons c after => exact List.dropWhile_cons_of_neg (by rw [ends c rfl]; exact Bool.false_ne_true)

/-- Every text is a stretch of characters that pass a test and a rest that goes on with none. -/
theorem exists_stretch (p : Char → Bool) (cs : List Char) :
    ∃ front after, cs = front ++ after ∧ (∀ c ∈ front, p c = true) ∧
      ∀ c ∈ after.head?, p c = false := by
  refine ⟨cs.takeWhile p, cs.dropWhile p, List.takeWhile_append_dropWhile.symm,
    fun c member => List.mem_takeWhile_imp member, fun c first => ?_⟩
  have ends := List.head?_dropWhile_not p cs
  rw [Option.mem_def] at first
  rwa [first] at ends

end

/-! ## Characters -/

/-- A digit is one of the ten of ASCII or stands beyond ASCII. -/
theorem toNat_of_isDigit {c : Char} (digit : Text.isDigit c = true) :
    (0x30 ≤ c.toNat ∧ c.toNat ≤ 0x39) ∨ 0x80 ≤ c.toNat := by
  unfold Text.isDigit Text.digitValue? at digit
  dsimp only at digit
  split at digit
  · rename_i ascii
    exact .inl ascii
  · split at digit
    · cases digit
    · rename_i beyond
      exact .inr (Nat.le_of_not_lt beyond)

theorem toNat_of_beginsName {c : Char} (begins : Piece.beginsName c = true) :
    0x41 ≤ c.toNat ∧ c.toNat < 0x80 := by
  simp only [Piece.beginsName, Char.isAlpha, Char.isUpper, Char.isLower, Bool.or_eq_true,
    Bool.and_eq_true, decide_eq_true_eq, beq_iff_eq, ge_iff_le, UInt32.le_iff_toNat_le] at begins
  change 0x41 ≤ c.val.toNat ∧ c.val.toNat < 0x80
  rcases begins with (⟨low, high⟩ | ⟨low, high⟩) | rfl
  · exact ⟨low, Nat.lt_of_le_of_lt high (by decide)⟩
  · exact ⟨Nat.le_trans (by decide) low, Nat.lt_of_le_of_lt high (by decide)⟩
  · decide

theorem continuesName_of_beginsName {c : Char} (begins : Piece.beginsName c = true) :
    Piece.continuesName c = true := by
  unfold Piece.beginsName at begins
  unfold Piece.continuesName Char.isAlphanum
  rcases Bool.or_eq_true_iff.mp begins with letter | line
  · rw [letter]
    rfl
  · rw [line, Bool.or_true]

theorem beginsName_of_isDigit {c : Char} (digit : Text.isDigit c = true) :
    Piece.beginsName c = false := by
  by_contra begins
  have letter := toNat_of_beginsName (eq_true_of_ne_false begins)
  rcases toNat_of_isDigit digit with ascii | beyond <;> omega

namespace Piece

variable {c : Char} {rest : List Char}

/-! ## Numbers -/

/-- The digits behind the point that a text begins with. -/
def fraction : List Char → List Char
  | '.' :: rest => rest.takeWhile Text.isDigit
  | _ => []

/-- The token of a number by its digits before and behind the point. -/
def numberToken (negative : Bool) (whole part : List Char) : Token :=
  if part.isEmpty then
    .integer (if negative then -(Text.digitsValue whole : Int) else Text.digitsValue whole)
  else .float (.ofDecimal negative ⟨Text.digitsValue (whole ++ part), -(part.length : Int)⟩)

/-- The digits of a number as they are written. -/
def numberText (whole part : List Char) : List Char :=
  if part.isEmpty then whole else whole ++ '.' :: part

theorem number?_of_no_digit {negative : Bool} {cs : List Char}
    (ends : ∀ c ∈ cs.head?, Text.isDigit c = false) : number? negative cs = none := by
  have none : cs.takeWhile Text.isDigit = [] := takeWhile_append_of_ends (List.forall_mem_nil _) ends
  unfold number?
  rw [none]
  rfl

theorem number?_of_digits (negative : Bool) {whole after : List Char} (digits : IsDigits whole)
    (ends : ∀ c ∈ after.head?, Text.isDigit c = false) :
    number? negative (whole ++ after) = some (numberToken negative whole (fraction after),
      (numberText whole (fraction after)).length) := by
  have read : number? negative (whole ++ after) =
      let digits := (whole ++ after).takeWhile Text.isDigit
      if digits.isEmpty then none
      else
        let part := fraction ((whole ++ after).dropWhile Text.isDigit)
        if part.isEmpty then
          let n : Int := Text.digitsValue digits
          some (.integer (if negative then -n else n), digits.length)
        else
          let decimal := ⟨Text.digitsValue (digits ++ part), -(part.length : Int)⟩
          some (.float (.ofDecimal negative decimal), digits.length + 1 + part.length) := rfl
  rw [read, takeWhile_append_of_ends digits.digits ends, dropWhile_append_of_ends digits.digits ends]
  unfold numberToken numberText
  dsimp only
  rw [List.isEmpty_eq_false_iff.mpr digits.filled, if_neg Bool.false_ne_true]
  cases (fraction after).isEmpty with
  | true => rfl
  | false => simp [Nat.add_assoc, Nat.add_comm]

theorem numberText_ne_nil {whole : List Char} (filled : whole ≠ []) (part : List Char) :
    numberText whole part ≠ [] := by
  unfold numberText
  split
  · exact filled
  · exact List.append_ne_nil_of_left_ne_nil filled _

theorem exists_number? (negative : Bool) (digit : Text.isDigit c = true) (rest : List Char) :
    ∃ t length, number? negative (c :: rest) = some (t, length) := by
  obtain ⟨whole, after, split, inside, ends⟩ := exists_stretch Text.isDigit (c :: rest)
  rw [split]
  rcases eq_or_ne whole [] with rfl | filled
  · have other := ends c (by rw [← List.nil_append after, ← split]; rfl)
    rw [digit] at other
    cases other
  · exact ⟨_, _, number?_of_digits negative ⟨filled, inside⟩ ends⟩

/-! ## String literals -/

theorem stringBody?_append {body : List Char} (closed : IsLiteralBody body) (after : List Char) :
    stringBody? (body ++ '"' :: after) = some body := by
  induction closed with
  | nil => rfl
  | escape inLine _ ih =>
    rw [List.cons_append, List.cons_append, stringBody?, if_neg inLine, ih]
    rfl
  | @plain c cs noQuote noBackslash _ ih =>
    rw [List.cons_append, stringBody?, ih]
    · rfl
    · exact noQuote
    · exact fun _ _ same _ => noBackslash same
    · exact fun same _ => noBackslash same

theorem stringBody?_sound {cs body : List Char} (read : stringBody? cs = some body) :
    IsLiteralBody body ∧ ∃ after, cs = body ++ '"' :: after := by
  fun_induction stringBody? cs generalizing body with
  | case1 => cases read
  | case2 rest =>
    cases read
    exact ⟨.nil, rest, rfl⟩
  | case3 rest => cases read
  | case4 c rest inLine ih =>
    obtain ⟨later, found, rfl⟩ := Option.map_eq_some_iff.mp read
    obtain ⟨closed, after, rfl⟩ := ih found
    exact ⟨.escape inLine closed, after, rfl⟩
  | case5 => cases read
  | case6 c rest noQuote pairless lone ih =>
    have noBackslash : c ≠ '\\' := by
      rintro rfl
      cases rest with
      | nil => exact lone rfl rfl
      | cons d rest => exact pairless d rest rfl rfl
    obtain ⟨later, found, rfl⟩ := Option.map_eq_some_iff.mp read
    obtain ⟨closed, after, rfl⟩ := ih found
    exact ⟨.plain noQuote noBackslash closed, after, rfl⟩

theorem literal_append (body after : List Char) :
    literal body ++ after = '"' :: (body ++ '"' :: after) := by
  simp [literal]

/-! ## Names, keywords and symbols -/

theorem ofMarkedName_append {name : List Char} (filled : name ≠ [])
    (unmarked : ∀ c ∈ name, c ≠ nameMark) (after : List Char) :
    ofMarkedName (name ++ nameMark :: after) =
      .token (.identifier (String.ofList name)) (name.length + 1) := by
  have inside : ∀ c ∈ name, (c != nameMark) = true := fun c member =>
    bne_iff_ne.mpr (unmarked c member)
  have ends : ∀ c ∈ (nameMark :: after).head?, (c != nameMark) = false := by
    intro c first
    cases first
    rfl
  unfold ofMarkedName
  dsimp only
  rw [takeWhile_append_of_ends inside ends, if_neg]
  rintro (blank | all)
  · exact filled (List.isEmpty_iff.mp blank)
  · rw [List.length_append, List.length_cons] at all
    omega

theorem symbol_sound {cs : List Char} {s : Symbol} (read : Symbol.atFront? cs = some s) :
    ∃ after, cs = s.spelling.toList ++ after := by
  unfold Symbol.atFront? at read
  split at read <;> cases read <;> exact ⟨_, rfl⟩

theorem symbol_append (s : Symbol) (after : List Char) :
    ∃ longer, Symbol.atFront? (s.spelling.toList ++ after) = some longer := by
  cases told : Symbol.atFront? (s.spelling.toList ++ after) with
  | some longer => exact ⟨longer, rfl⟩
  | none =>
    unfold Symbol.atFront? at told
    split at told <;> try cases told
    rename_i strictEqual strictNotEqual equal notEqual lessOrEqual greaterOrEqual assign less greater
      comma dot leftBracket rightBracket semicolon
    cases s with
    | comma => exact (comma _ rfl).elim
    | dot => exact (dot _ rfl).elim
    | leftBracket => exact (leftBracket _ rfl).elim
    | rightBracket => exact (rightBracket _ rfl).elim
    | semicolon => exact (semicolon _ rfl).elim
    | assign => exact (assign _ rfl).elim
    | equal => exact (equal _ rfl).elim
    | strictEqual => exact (strictEqual _ rfl).elim
    | notEqual => exact (notEqual _ rfl).elim
    | strictNotEqual => exact (strictNotEqual _ rfl).elim
    | less => exact (less _ rfl).elim
    | lessOrEqual => exact (lessOrEqual _ rfl).elim
    | greater => exact (greater _ rfl).elim
    | greaterOrEqual => exact (greaterOrEqual _ rfl).elim

/-! ## Which rule applies -/

variable [CharacterNames]

theorem atFront_of_beginsName (begins : beginsName c = true) (rest : List Char) :
    atFront c rest = ofWord c rest := by
  have other : ∀ d, beginsName d = false → c ≠ d := by
    rintro d ends rfl
    rw [begins] at ends
    cases ends
  unfold atFront
  rw [if_neg (by rintro (same | same) <;> exact other _ (by decide) same),
    if_neg (other _ (by decide)), if_neg (other _ (by decide)), if_neg (other _ (by decide)),
    if_neg (other _ (by decide)), if_pos begins]

theorem atFront_of_isDigit (digit : Text.isDigit c = true) {t : Token} {length : Nat}
    (read : number? false (c :: rest) = some (t, length)) :
    atFront c rest = .token t (length - 1) := by
  have other : ∀ d, Text.isDigit d = false → c ≠ d := by
    rintro d ends rfl
    rw [digit] at ends
    cases ends
  unfold atFront
  rw [if_neg (by rintro (same | same) <;> exact other _ (by decide) same),
    if_neg (other _ (by decide)), if_neg (other _ (by decide)), if_neg (other _ (by decide)),
    if_neg (other _ (by decide)), if_neg (by rw [beginsName_of_isDigit digit]; decide), read]

theorem ofString_literal {body : List Char} (closed : IsLiteralBody body) (after : List Char) :
    ofString (body ++ '"' :: after) = match StringLiteral.decode body with
      | .ok s => .token (.string s) (body.length + 1)
      | .error fault => .badString fault := by
  unfold ofString
  rewrite [stringBody?_append closed after]
  rfl

theorem atFront_quote (rest : List Char) : atFront '"' rest = ofString rest := rfl

/-! ## Numbers and their tokens -/

/-- A number is at the front of its digits, which are those on both sides of a point or the first
stretch alone. -/
theorem spells_numberText (negative : Bool) {whole : List Char} (digits : IsDigits whole)
    (after : List Char) : ∃ rest, whole ++ after = numberText whole (fraction after) ++ rest ∧
      Spells (sign negative ++ numberText whole (fraction after))
        (numberToken negative whole (fraction after)) := by
  have plain : Spells (sign negative ++ numberText whole []) (numberToken negative whole []) :=
    .integer negative digits
  unfold fraction
  split
  · rename_i rest
    obtain ⟨part, rest, rfl, inside, ends⟩ := exists_stretch Text.isDigit rest
    rw [takeWhile_append_of_ends inside ends]
    cases part with
    | nil => exact ⟨_, rfl, plain⟩
    | cons d part =>
      have digits' : IsDigits (d :: part) := ⟨List.cons_ne_nil d part, inside⟩
      refine ⟨rest, ?_, .float negative digits digits'⟩
      simp [numberText]
  · exact ⟨after, rfl, plain⟩

/-- A number that is read spells its token, behind the sign. -/
theorem number?_sound {negative : Bool} {cs : List Char} {t : Token} {length : Nat}
    (read : number? negative cs = some (t, length)) :
    ∃ part after, cs = part ++ after ∧ part ≠ [] ∧ part.length = length ∧
      Spells (sign negative ++ part) t := by
  obtain ⟨whole, after, rfl, inside, ends⟩ := exists_stretch Text.isDigit cs
  rcases eq_or_ne whole [] with rfl | filled
  · rw [List.nil_append, number?_of_no_digit ends] at read
    cases read
  · rw [number?_of_digits negative ⟨filled, inside⟩ ends] at read
    cases read
    obtain ⟨rest, split, spells⟩ := spells_numberText negative ⟨filled, inside⟩ after
    exact ⟨_, rest, split, numberText_ne_nil filled _, rfl, spells⟩

/-! ## What the lexer takes -/

/-- What is taken from the front of the characters matches a pattern. -/
inductive Matches (cs : List Char) : Piece → Prop where
  | gap {lexeme after : List Char} {more lineFeeds : Nat} (split : cs = lexeme ++ after)
      (length : lexeme.length = more + 1) (gap : IsGap lexeme) : Matches cs (.gap more lineFeeds)
  | token {lexeme after : List Char} {t : Token} {more : Nat} (split : cs = lexeme ++ after)
      (length : lexeme.length = more + 1) (spells : Spells lexeme t) : Matches cs (.token t more)
  | badString {body after : List Char} {fault : StringLiteral.BadEscape}
      (split : cs = literal body ++ after) (closed : IsLiteralBody body)
      (malformed : StringLiteral.decode body = .error fault) : Matches cs (.badString fault)
  | illegal : Matches cs .illegal

theorem matches_lineFeeds (rest : List Char) : Matches ('\n' :: rest)
    (.gap (rest.takeWhile (· == '\n')).length ((rest.takeWhile (· == '\n')).length + 1)) := by
  obtain ⟨feeds, after, rfl, inside, ends⟩ := exists_stretch (· == '\n') rest
  rw [takeWhile_append_of_ends inside ends]
  have feed : feeds = List.replicate feeds.length '\n' :=
    List.eq_replicate_iff.mpr ⟨rfl, fun c member => by simpa using inside c member⟩
  have gap : IsGap ('\n' :: feeds) := by
    rw [feed]
    exact .lineFeeds _
  exact .gap rfl rfl gap

theorem matches_ofHyphen (rest : List Char) : Matches ('-' :: rest) (ofHyphen rest) := by
  unfold ofHyphen
  split
  · rename_i read
    obtain ⟨part, after, rfl, -, rfl, spells⟩ := number?_sound read
    have split : '-' :: (part ++ after) = ('-' :: part) ++ after := rfl
    exact .token split rfl spells
  · split
    · rename_i comment _
      obtain ⟨line, after, rfl, inside, ends⟩ := exists_stretch (· != '\n') comment
      rw [takeWhile_append_of_ends inside ends]
      have gap : IsGap ('-' :: '-' :: line) :=
        .comment fun c member => by simpa using inside c member
      exact .gap rfl rfl gap
    · exact .illegal

theorem matches_ofString (rest : List Char) : Matches ('"' :: rest) (ofString rest) := by
  unfold ofString
  split
  · exact .illegal
  · rename_i body found
    obtain ⟨closed, after, rfl⟩ := stringBody?_sound found
    have split := (literal_append body after).symm
    split
    · rename_i decodes
      exact .token split (by simp [literal]) (.string closed decodes)
    · rename_i malformed
      exact .badString split closed malformed

theorem matches_ofMarkedName (rest : List Char) :
    Matches (nameMark :: rest) (ofMarkedName rest) := by
  obtain ⟨name, after, rfl, inside, ends⟩ := exists_stretch (· != nameMark) rest
  unfold ofMarkedName
  dsimp only
  rw [takeWhile_append_of_ends inside ends]
  split
  · exact .illegal
  · rename_i marked
    cases after with
    | nil => exact absurd (.inr (by rw [List.append_nil])) marked
    | cons d after =>
      have closing : d = nameMark := by simpa using ends d rfl
      have filled : name ≠ [] := fun blank => marked (.inl (List.isEmpty_iff.mpr blank))
      have unmarked : ∀ c ∈ name, c ≠ nameMark := fun c member => by simpa using inside c member
      have split : nameMark :: (name ++ d :: after) =
          nameMark :: (name ++ [nameMark]) ++ after := by simp [closing]
      exact .token split (by simp) (.markedName filled unmarked)

theorem matches_ofWord (begins : beginsName c = true) (rest : List Char) :
    Matches (c :: rest) (ofWord c rest) := by
  obtain ⟨cs, after, rfl, inside, ends⟩ := exists_stretch continuesName rest
  unfold ofWord
  dsimp only
  rw [takeWhile_append_of_ends inside ends]
  split
  · rename_i k reserved
    exact .token (List.cons_append).symm rfl (.keyword (.mk begins inside) reserved)
  · rename_i free
    exact .token (List.cons_append).symm rfl (.name (.mk begins inside) free)

theorem matches_ofSymbol (cs : List Char) : Matches cs (ofSymbol cs) := by
  unfold ofSymbol
  split
  · rename_i s read
    obtain ⟨after, split⟩ := symbol_sound read
    refine .token split ?_ (.symbol s)
    cases s <;> rfl
  · exact .illegal

theorem matches_atFront (c : Char) (rest : List Char) : Matches (c :: rest) (atFront c rest) := by
  unfold atFront
  split
  · rename_i blank
    rcases blank with rfl | rfl
    · have split : ' ' :: rest = [' '] ++ rest := rfl
      exact .gap split rfl .blank
    · have split : '\t' :: rest = ['\t'] ++ rest := rfl
      exact .gap split rfl .tab
  split
  · rename_i same
    rw [same]
    exact matches_lineFeeds rest
  split
  · rename_i same
    rw [same]
    exact matches_ofHyphen rest
  split
  · rename_i same
    rw [same]
    exact matches_ofString rest
  split
  · rename_i same
    rw [same]
    exact matches_ofMarkedName rest
  split
  · exact matches_ofWord ‹_› rest
  split
  · rename_i read
    obtain ⟨part, after, split, filled, length, spells⟩ := number?_sound read
    refine .token split ?_ spells
    rw [← length, Nat.sub_add_cancel (List.length_pos_of_ne_nil filled)]
  · exact matches_ofSymbol (c :: rest)

/-- The lexer meets a malformed escape just at a string literal that has one. -/
theorem badString_iff {fault : StringLiteral.BadEscape} : atFront c rest = .badString fault ↔
    ∃ body after, IsLiteralBody body ∧ c :: rest = literal body ++ after ∧
      StringLiteral.decode body = .error fault := by
  constructor
  · intro front
    have taken := matches_atFront c rest
    rw [front] at taken
    cases taken with
    | badString split closed malformed => exact ⟨_, _, closed, split, malformed⟩
  · rintro ⟨body, after, closed, split, malformed⟩
    rw [literal_append] at split
    cases split
    rw [atFront_quote, ofString_literal closed, malformed]

/-! ## Where no pattern matches -/

theorem gap_ne_illegal {lexeme after : List Char} (gap : IsGap lexeme)
    (split : c :: rest = lexeme ++ after) : atFront c rest ≠ .illegal := by
  cases gap with
  | blank =>
    cases split
    exact fun illegal => by cases illegal
  | tab =>
    cases split
    exact fun illegal => by cases illegal
  | lineFeeds more =>
    cases split
    exact fun illegal => by cases illegal
  | comment line =>
    cases split
    exact fun illegal => by cases illegal

theorem literal_ne_illegal {body after : List Char} (closed : IsLiteralBody body)
    (split : c :: rest = literal body ++ after) : atFront c rest ≠ .illegal := by
  rw [literal_append] at split
  cases split
  rw [atFront_quote, ofString_literal closed]
  split <;> exact fun illegal => by cases illegal

theorem number_ne_illegal {negative : Bool} {digits after : List Char} (whole : IsDigits digits)
    (split : c :: rest = sign negative ++ (digits ++ after)) : atFront c rest ≠ .illegal := by
  obtain ⟨d, digits, rfl⟩ := List.exists_cons_of_ne_nil whole.filled
  have digit := whole.digits d List.mem_cons_self
  cases negative with
  | false =>
    cases split
    obtain ⟨t, length, read⟩ := exists_number? false digit (digits ++ after)
    have taken := atFront_of_isDigit digit read
    exact fun illegal => by cases taken.symm.trans illegal
  | true =>
    cases split
    obtain ⟨t, length, read⟩ := exists_number? true digit (digits ++ after)
    have hyphen : atFront '-' (d :: (digits ++ after)) = ofHyphen (d :: (digits ++ after)) := rfl
    unfold ofHyphen at hyphen
    rw [read] at hyphen
    exact fun illegal => by cases hyphen.symm.trans illegal

theorem word_ne_illegal {word after : List Char} (shape : IsWord word)
    (split : c :: rest = word ++ after) : atFront c rest ≠ .illegal := by
  cases shape with
  | mk begins continues =>
    cases split
    rw [atFront_of_beginsName begins]
    unfold ofWord
    dsimp only
    split <;> exact fun illegal => by cases illegal

theorem symbol_ne_illegal {s : Symbol} {after : List Char}
    (split : c :: rest = s.spelling.toList ++ after) : atFront c rest ≠ .illegal := by
  obtain ⟨longer, read⟩ := symbol_append s after
  rw [← split] at read
  have symbol : ofSymbol (c :: rest) ≠ .illegal := by
    unfold ofSymbol
    rw [read]
    exact fun illegal => by cases illegal
  cases s <;> cases split <;> exact symbol

theorem spells_ne_illegal {lexeme after : List Char} {t : Token} (spells : Spells lexeme t)
    (split : c :: rest = lexeme ++ after) : atFront c rest ≠ .illegal := by
  cases spells with
  | integer negative whole =>
    rw [List.append_assoc] at split
    exact number_ne_illegal whole split
  | float negative whole part =>
    rw [List.append_assoc, List.append_assoc] at split
    exact number_ne_illegal whole split
  | string closed _ => exact literal_ne_illegal closed split
  | markedName filled unmarked =>
    rw [List.cons_append, List.append_assoc] at split
    cases split
    have named := ofMarkedName_append filled unmarked after
    exact fun illegal => by cases named.symm.trans illegal
  | name shape _ => exact word_ne_illegal shape split
  | keyword shape _ => exact word_ne_illegal shape split
  | symbol s => exact symbol_ne_illegal split

/-- The lexer stops just where no pattern matches. -/
theorem illegal_iff : atFront c rest = .illegal ↔
    ∀ lexeme, IsLexeme lexeme → ¬ lexeme <+: c :: rest := by
  constructor
  · rintro illegal lexeme (gap | ⟨t, spells⟩ | ⟨body, closed, rfl⟩) ⟨after, split⟩
    · exact gap_ne_illegal gap split.symm illegal
    · exact spells_ne_illegal spells split.symm illegal
    · exact literal_ne_illegal closed split.symm illegal
  · intro nothing
    have taken := matches_atFront c rest
    generalize atFront c rest = piece at taken
    cases taken with
    | gap split _ gap => exact absurd ⟨_, split.symm⟩ (nothing _ (.inl gap))
    | token split _ spells => exact absurd ⟨_, split.symm⟩ (nothing _ (.inr (.inl ⟨_, spells⟩)))
    | badString split closed _ =>
      exact absurd ⟨_, split.symm⟩ (nothing _ (.inr (.inr ⟨_, closed, rfl⟩)))
    | illegal => rfl

end Piece

end RecordQuery.Itq
