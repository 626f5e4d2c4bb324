import Mathlib
import RecordQuery.Proofs.Itq.Lexemes

/-!
# Texts cut behind a lexeme

Which characters the lexer takes from the front of a text is settled by these characters alone, even
where it looks for the longest match: if the text ended behind them, it would take the same
(`Piece.standsAlone_atFront`). Nothing of the sort holds of what it refuses.
-/

namespace RecordQuery.Itq

/-! ## Texts that end earlier -/

section

variable {p : Char → Bool} {cs behind : List Char}

/-- A stretch that ends within a text is the same without what stands behind the text. -/
theorem takeWhile_of_append (fits : ((cs ++ behind).takeWhile p).length ≤ cs.length) :
    (cs ++ behind).takeWhile p = cs.takeWhile p := by
  rw [List.takeWhile_append] at fits ⊢
  split at fits
  · rename_i all
    have whole : cs.takeWhile p = cs := (List.takeWhile_prefix p).eq_of_length all
    have nothing : behind.takeWhile p = [] := by
      rw [List.length_append] at fits
      exact List.length_eq_zero_iff.mp (by omega)
    rw [if_pos all, nothing, List.append_nil, whole]
  · rename_i part
    rw [if_neg part]

theorem dropWhile_of_append (fits : ((cs ++ behind).takeWhile p).length ≤ cs.length) :
    (cs ++ behind).dropWhile p = cs.dropWhile p ++ behind := by
  have same := takeWhile_of_append fits
  have whole : (cs ++ behind).takeWhile p ++ (cs ++ behind).dropWhile p =
      cs.takeWhile p ++ (cs.dropWhile p ++ behind) := by
    rw [List.takeWhile_append_dropWhile, ← List.append_assoc, List.takeWhile_append_dropWhile]
  rw [same] at whole
  exact List.append_cancel_left whole

end

namespace Symbol

/-- Whether an equals sign continues the symbol to a longer one. -/
def isOpen : Symbol → Bool
  | .assign | .equal | .notEqual | .less | .greater => true
  | _ => false

/-- A symbol is read where it stands unless an equals sign continues it. -/
theorem atFront?_spelling_append_iff (s : Symbol) (cs : List Char) :
    atFront? (s.spelling.toList ++ cs) = some s ↔ (s.isOpen = true → cs.head? ≠ some '=') := by
  rcases cs with _ | ⟨c, cs⟩
  · cases s <;> exact iff_of_true rfl fun _ first => nomatch first
  · by_cases sign : c = '='
    · subst sign
      rcases cs with _ | ⟨d, cs⟩
      · cases s <;> decide
      · by_cases further : d = '='
        · subst further
          cases s <;> simp [spelling, isOpen, atFront?]
        · cases s <;> simp [spelling, isOpen, atFront?, further]
    · cases s <;> simp [spelling, isOpen, atFront?, sign]

end Symbol

namespace Piece

variable {c : Char} {cs behind : List Char}

/-- The token that is taken from the front, unless it is a gap, and how many characters are taken
after the first one. -/
def taken? : Piece → Option (Option Token × Nat)
  | .gap more _ => some (none, more)
  | .token t more => some (some t, more)
  | .illegal | .badString _ => none

/-- What a rule takes from the front of a text it takes as well if the text ends behind it. -/
def StandsAlone (rule : List Char → Piece) : Prop :=
  ∀ cs behind token? more, (rule (cs ++ behind)).taken? = some (token?, more) → more ≤ cs.length →
    (rule cs).taken? = some (token?, more)

theorem number?_eq (negative : Bool) (cs : List Char) : number? negative cs =
    if (cs.takeWhile Text.isDigit).isEmpty then none
    else some
      (numberToken negative (cs.takeWhile Text.isDigit) (fraction (cs.dropWhile Text.isDigit)),
        (numberText (cs.takeWhile Text.isDigit)
          (fraction (cs.dropWhile Text.isDigit))).length) := by
  obtain ⟨whole, after, rfl, inside, ends⟩ := exists_stretch Text.isDigit cs
  rw [takeWhile_append_of_ends inside ends, dropWhile_append_of_ends inside ends]
  split
  · rename_i blank
    rw [List.isEmpty_iff.mp blank, List.nil_append, number?_of_no_digit ends]
  · rename_i filled
    exact number?_of_digits negative ⟨fun blank => filled (List.isEmpty_iff.mpr blank), inside⟩ ends

theorem length_le_numberText (whole part : List Char) :
    whole.length ≤ (numberText whole part).length := by
  unfold numberText
  split
  · exact Nat.le_refl _
  · rw [List.length_append]
    exact Nat.le_add_right _ _

theorem fraction_of_append {whole : List Char}
    (fits : (numberText whole (fraction (cs ++ behind))).length ≤ whole.length + cs.length) :
    fraction (cs ++ behind) = fraction cs := by
  cases cs with
  | nil =>
    rw [List.nil_append] at fits ⊢
    -- Nothing stands behind the digits, so no point and no digits of a fraction are taken.
    generalize fraction behind = part at fits ⊢
    unfold numberText at fits
    split at fits
    · rename_i blank
      exact List.isEmpty_iff.mp blank
    · simp at fits
  | cons c cs =>
    by_cases point : c = '.'
    · subst point
      have part : fraction ('.' :: cs ++ behind) = (cs ++ behind).takeWhile Text.isDigit := rfl
      rw [part] at fits ⊢
      refine takeWhile_of_append ?_
      unfold numberText at fits
      split at fits
      · rename_i blank
        rw [List.isEmpty_iff.mp blank]
        exact Nat.zero_le _
      · simp only [List.length_append, List.length_cons] at fits
        omega
    · unfold fraction
      split
      · rename_i same
        cases same
        exact absurd rfl point
      · split
        · rename_i same
          cases same
          exact absurd rfl point
        · rfl

theorem number?_of_append {negative : Bool} {t : Token} {more : Nat}
    (read : number? negative (cs ++ behind) = some (t, more)) (fits : more ≤ cs.length) :
    number? negative cs = some (t, more) := by
  rw [number?_eq] at read ⊢
  split at read
  · cases read
  · rename_i filled
    cases read
    have inside := (length_le_numberText _ _).trans fits
    have size :
        (cs.takeWhile Text.isDigit).length + (cs.dropWhile Text.isDigit).length = cs.length := by
      rw [← List.length_append, List.takeWhile_append_dropWhile]
    rw [dropWhile_of_append inside, takeWhile_of_append inside] at fits ⊢
    rw [takeWhile_of_append inside] at filled
    rw [if_neg filled]
    rw [fraction_of_append (fits.trans_eq size.symm)]

theorem number?_of_append_eq_none {negative : Bool}
    (read : number? negative (cs ++ behind) = none) : number? negative cs = none := by
  rw [number?_eq] at read ⊢
  split at read
  · rename_i blank
    have nothing := List.isEmpty_iff.mp blank
    have fits : ((cs ++ behind).takeWhile Text.isDigit).length ≤ cs.length := by
      rw [nothing]
      exact Nat.zero_le _
    rw [← takeWhile_of_append fits, if_pos blank]
  · cases read

theorem standsAlone_ofHyphen : StandsAlone ofHyphen := by
  intro cs behind token? more taken fits
  unfold ofHyphen at taken ⊢
  cases read : number? true (cs ++ behind) with
  | some number =>
    obtain ⟨t, length⟩ := number
    rw [read] at taken
    cases taken
    rw [number?_of_append read fits]
    rfl
  | none =>
    rw [read] at taken
    rw [number?_of_append_eq_none read]
    cases cs with
    | nil =>
      dsimp only at taken
      split at taken
      · cases taken
        simp at fits
      · cases taken
    | cons c cs =>
      by_cases hyphen : c = '-'
      · subst hyphen
        rw [List.cons_append] at taken
        cases taken
        rw [List.length_cons] at fits
        have within := takeWhile_of_append (p := (· != '\n')) (Nat.le_of_succ_le_succ fits)
        exact congrArg (fun line => some (none, line.length + 1)) within.symm
      · rw [List.cons_append] at taken
        dsimp only at taken
        split at taken
        · rename_i same
          cases same
          exact absurd rfl hyphen
        · cases taken

theorem standsAlone_ofString [CharacterNames] : StandsAlone ofString := by
  intro cs behind token? more taken fits
  cases found : stringBody? (cs ++ behind) with
  | none =>
    unfold ofString at taken
    rw [found] at taken
    cases taken
  | some body =>
    obtain ⟨closed, after, split⟩ := stringBody?_sound found
    have size : more = body.length + 1 := by
      rw [split, ofString_literal closed] at taken
      split at taken
      · cases taken
        rfl
      · cases taken
    -- The text is long enough to hold the closing quote.
    obtain ⟨rest, same⟩ : ∃ rest, cs = body ++ '"' :: rest := by
      have front : body ++ ['"'] <+: cs := by
        refine List.prefix_of_prefix_length_le ⟨after, ?_⟩ (List.prefix_append cs behind) ?_
        · rw [split, List.append_assoc]
          rfl
        · rw [List.length_append]
          exact size ▸ fits
      obtain ⟨rest, rfl⟩ := front
      exact ⟨rest, List.append_assoc ..⟩
    rw [split, ofString_literal closed] at taken
    rw [same, ofString_literal closed]
    exact taken

theorem standsAlone_ofMarkedName : StandsAlone ofMarkedName := by
  intro cs behind token? more taken fits
  unfold ofMarkedName at taken ⊢
  dsimp only at taken ⊢
  split at taken
  · cases taken
  · rename_i marked
    cases taken
    have same := takeWhile_of_append (p := (· != nameMark)) (Nat.le_of_succ_le fits)
    rw [same] at marked fits ⊢
    rw [if_neg]
    · rfl
    · rintro (blank | whole)
      · exact marked (.inl blank)
      · exact absurd whole (Nat.ne_of_lt fits)

theorem standsAlone_ofWord (c : Char) : StandsAlone (ofWord c) := by
  intro cs behind token? more taken fits
  unfold ofWord at taken ⊢
  dsimp only at taken ⊢
  have size : more = ((cs ++ behind).takeWhile continuesName).length := by
    split at taken <;> cases taken <;> rfl
  rw [size] at fits
  rw [takeWhile_of_append fits] at taken
  exact taken

theorem symbol_of_append {s : Symbol} (read : Symbol.atFront? (c :: (cs ++ behind)) = some s)
    (fits : s.spelling.length - 1 ≤ cs.length) : Symbol.atFront? (c :: cs) = some s := by
  obtain ⟨rest, split⟩ : s.spelling.toList <+: c :: cs := by
    obtain ⟨after, whole⟩ := symbol_sound read
    refine List.prefix_of_prefix_length_le ⟨after, whole.symm⟩
      (List.prefix_append (c :: cs) behind) ?_
    rw [String.length_toList, List.length_cons]
    omega
  have longer : c :: (cs ++ behind) = s.spelling.toList ++ (rest ++ behind) := by
    rw [← List.append_assoc, split]
    rfl
  rw [longer, Symbol.atFront?_spelling_append_iff] at read
  rw [← split, Symbol.atFront?_spelling_append_iff]
  intro continues first
  refine read continues ?_
  rw [List.head?_append, first]
  rfl

theorem standsAlone_ofSymbol (c : Char) : StandsAlone fun cs => ofSymbol (c :: cs) := by
  intro cs behind token? more taken fits
  dsimp only at taken ⊢
  unfold ofSymbol at taken ⊢
  cases read : Symbol.atFront? (c :: (cs ++ behind)) with
  | none =>
    rw [read] at taken
    cases taken
  | some s =>
    rw [read] at taken
    cases taken
    rw [symbol_of_append read fits]
    rfl

/-- What the lexer takes does not depend on what stands behind it. -/
theorem standsAlone_atFront [CharacterNames] (c : Char) : StandsAlone (atFront c) := by
  intro cs behind token? more taken fits
  unfold atFront at taken ⊢
  by_cases blank : c = ' ' ∨ c = '\t'
  · rw [if_pos blank] at taken ⊢
    exact taken
  rw [if_neg blank] at taken ⊢
  by_cases feed : c = '\n'
  · rw [if_pos feed] at taken ⊢
    cases taken
    exact congrArg (fun feeds => some (none, feeds.length)) (takeWhile_of_append fits).symm
  rw [if_neg feed] at taken ⊢
  by_cases hyphen : c = '-'
  · rw [if_pos hyphen] at taken ⊢
    exact standsAlone_ofHyphen cs behind token? more taken fits
  rw [if_neg hyphen] at taken ⊢
  by_cases quote : c = '"'
  · rw [if_pos quote] at taken ⊢
    exact standsAlone_ofString cs behind token? more taken fits
  rw [if_neg quote] at taken ⊢
  by_cases mark : c = nameMark
  · rw [if_pos mark] at taken ⊢
    exact standsAlone_ofMarkedName cs behind token? more taken fits
  rw [if_neg mark] at taken ⊢
  by_cases letter : beginsName c = true
  · rw [if_pos letter] at taken ⊢
    exact standsAlone_ofWord c cs behind token? more taken fits
  rw [if_neg letter] at taken ⊢
  cases read : number? false (c :: (cs ++ behind)) with
  | some number =>
    obtain ⟨t, length⟩ := number
    rw [read] at taken
    cases taken
    have within : length ≤ (c :: cs).length := Nat.sub_le_iff_le_add.mp fits
    rw [@number?_of_append (c :: cs) behind _ _ _ read within]
    rfl
  | none =>
    rw [read] at taken
    rw [@number?_of_append_eq_none (c :: cs) behind _ read]
    exact standsAlone_ofSymbol c cs behind token? more taken fits

end Piece

end RecordQuery.Itq
