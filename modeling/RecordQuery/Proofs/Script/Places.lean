import Mathlib
import RecordQuery.Proofs.Itq.Lexing.Blanks
import RecordQuery.Script

/-!
# Where the splitter stands

The splitter goes through a script character by character and is at each place outside of string
literals, inside of one or behind a backslash in one (`Place.next?`, `Place.after?`). It cuts at
semicolons outside of literals and nowhere else, so a stretch that it gets through only moves it from
place to place (`partsFrom_append`). Plain characters, blanks among them, leave it outside, and so
does a string literal as the lexer takes it, between the quotes of which it is never outside
(`Place.exists_after?_take_literal`).
-/

namespace RecordQuery.Script

open Itq (IsLiteralBody literal)

/-! ## Places -/

namespace Place

/-- Where the splitter stands behind a character, unless it cuts there. -/
def next? : Place → Char → Option Place
  | .escaped, _ => some .inside
  | .inside, c => some (if c = '\\' then .escaped else if c = '"' then .outside else .inside)
  | .outside, c => if c = ';' then none else some (if c = '"' then .inside else .outside)

/-- Where the splitter stands behind a stretch, unless it makes a cut in it. -/
def after? (place : Place) (cs : List Char) : Option Place := cs.foldlM next? place

variable {place place' : Place} {c : Char} {cs ds : List Char}

theorem next?_inside (c : Char) : inside.next? c =
    some (if c = '\\' then .escaped else if c = '"' then .outside else .inside) := rfl

theorem next?_outside (c : Char) : outside.next? c =
    if c = ';' then none else some (if c = '"' then .inside else .outside) := rfl

theorem after?_cons (place : Place) (c : Char) (cs : List Char) :
    place.after? (c :: cs) = (place.next? c).bind fun place => place.after? cs :=
  List.foldlM_cons

theorem after?_append (place : Place) (cs ds : List Char) :
    place.after? (cs ++ ds) = (place.after? cs).bind fun place => place.after? ds :=
  List.foldlM_append

theorem after?_append_of_some (read : place.after? cs = some place') (ds : List Char) :
    place.after? (cs ++ ds) = place'.after? ds := by
  rw [after?_append, read, Option.bind_some]

/-- The splitter cuts only outside of literals, at a semicolon. -/
theorem next?_eq_none (cut : place.next? c = none) : place = .outside ∧ c = ';' := by
  cases place with
  | escaped => cases cut
  | inside => cases cut
  | outside =>
    rw [next?_outside] at cut
    split at cut
    · exact ⟨rfl, ‹_›⟩
    · cases cut

end Place

theorem partsFrom_cons (place : Place) (current : List Char) (c : Char) (rest : List Char) :
    partsFrom place current (c :: rest) = match place.next? c with
      | some next => partsFrom next (c :: current) rest
      | none => current.reverse :: partsFrom .outside [] rest := by
  cases place with
  | escaped => rfl
  | inside => rfl
  | outside =>
    rw [Place.next?_outside, partsFrom]
    split <;> rfl

theorem partsFrom_append {place place' : Place} {front : List Char}
    (read : place.after? front = some place') (current rest : List Char) :
    partsFrom place current (front ++ rest) = partsFrom place' (front.reverse ++ current) rest := by
  induction front generalizing place current with
  | nil =>
    cases read
    rfl
  | cons c front ih =>
    rw [Place.after?_cons] at read
    obtain ⟨next, step, later⟩ := Option.bind_eq_some_iff.mp read
    rw [List.cons_append, partsFrom_cons, step]
    dsimp only
    rw [ih later, List.reverse_cons, List.append_assoc]
    rfl

/-! ## Plain characters and blanks -/

/-- The splitter does not mind the character. -/
def IsPlain (c : Char) : Prop := c ≠ ';' ∧ c ≠ '"'

theorem isPlain_of_isBlank {c : Char} (blank : Text.isBlank c = true) : IsPlain c :=
  Itq.of_isBlank (p := fun c => c ≠ ';' ∧ c ≠ '"') (by decide) blank

namespace Place

variable {place : Place} {cs : List Char}

theorem after?_outside_of_isPlain (plain : ∀ c ∈ cs, IsPlain c) :
    outside.after? cs = some .outside := by
  induction cs with
  | nil => rfl
  | cons c cs ih =>
    obtain ⟨⟨noCut, noQuote⟩, later⟩ := List.forall_mem_cons.mp plain
    rw [after?_cons, next?_outside, if_neg noCut, if_neg noQuote]
    exact ih later

/-- No blank ends a literal. -/
theorem eq_outside_of_isBlank (blank : ∀ c ∈ cs, Text.isBlank c = true)
    (read : place.after? cs = some .outside) : place = .outside := by
  induction cs generalizing place with
  | nil => exact Option.some.inj read
  | cons c cs ih =>
    rw [List.forall_mem_cons] at blank
    have noQuote := (isPlain_of_isBlank blank.1).2
    rw [after?_cons] at read
    obtain ⟨place', step, later⟩ := Option.bind_eq_some_iff.mp read
    obtain rfl := ih blank.2 later
    cases place with
    | outside => rfl
    | escaped => cases step
    | inside =>
      rw [next?_inside, if_neg noQuote] at step
      split at step <;> cases step

/-- What a stretch is read as without the blanks at its ends. -/
theorem after?_strip (read : outside.after? cs = some place) :
    ∃ place', outside.after? (Text.strip cs) = some place' ∧
      (place = .outside → place' = .outside) := by
  obtain ⟨lead, trail, split, before, behind⟩ := Text.exists_strip cs
  have unmoved : outside.after? lead = some .outside :=
    after?_outside_of_isPlain fun c member => isPlain_of_isBlank (before c member)
  rw [split, after?_append_of_some unmoved, after?_append] at read
  obtain ⟨place', kept, rest⟩ := Option.bind_eq_some_iff.mp read
  refine ⟨place', kept, ?_⟩
  rintro rfl
  exact eq_outside_of_isBlank behind rest

/-! ## String literals -/

variable {body : List Char}

theorem next?_inside_of_plain {c : Char} (noQuote : c ≠ '"') (noBackslash : c ≠ '\\') :
    inside.next? c = some .inside := by
  rw [next?_inside, if_neg noBackslash, if_neg noQuote]

theorem after?_body (closed : IsLiteralBody body) : inside.after? body = some .inside := by
  induction closed with
  | nil => rfl
  | escape _ _ ih => exact ih
  | plain noQuote noBackslash _ ih =>
    rw [after?_cons, next?_inside_of_plain noQuote noBackslash]
    exact ih

/-- Nowhere between the quotes does the splitter leave the literal. -/
theorem exists_after?_take_body (closed : IsLiteralBody body) (n : Nat) :
    ∃ place, inside.after? (body.take n) = some place ∧ place ≠ .outside := by
  have start : inside.after? [] = some .inside ∧ inside ≠ .outside := ⟨rfl, Place.noConfusion⟩
  induction closed generalizing n with
  | nil => exact ⟨_, by rw [List.take_nil]; exact start⟩
  | escape _ _ ih =>
    -- The stretch may end between the backslash and the character that it takes along.
    match n with
    | 0 => exact ⟨_, start⟩
    | 1 => exact ⟨.escaped, rfl, Place.noConfusion⟩
    | n + 2 => exact ih n
  | plain noQuote noBackslash _ ih =>
    match n with
    | 0 => exact ⟨_, start⟩
    | n + 1 =>
      rw [List.take_succ_cons, after?_cons, next?_inside_of_plain noQuote noBackslash]
      exact ih n

/-- The splitter is outside of the literal in front of its opening quote and behind its closing one,
and nowhere else. -/
theorem exists_after?_take_literal (closed : IsLiteralBody body) (n : Nat) :
    ∃ place, outside.after? ((literal body).take n) = some place ∧
      (place = .outside ↔ n = 0 ∨ (literal body).length ≤ n) := by
  have length : (literal body).length = body.length + 2 := by simp [literal]
  cases n with
  | zero => exact ⟨.outside, rfl, iff_of_true rfl (.inl rfl)⟩
  | succ n =>
    have opened : outside.after? ((literal body).take (n + 1)) =
        inside.after? ((body ++ ['"']).take n) := rfl
    rw [opened]
    rcases Nat.lt_or_ge body.length n with beyond | within
    · have whole : (body ++ ['"']).take n = body ++ ['"'] :=
        List.take_of_length_le (by rw [List.length_append, List.length_singleton]; omega)
      rw [whole, after?_append_of_some (after?_body closed)]
      exact ⟨.outside, rfl, iff_of_true rfl (.inr (by omega))⟩
    · rw [List.take_append_of_le_length within]
      obtain ⟨place, read, inner⟩ := exists_after?_take_body closed n
      exact ⟨place, read, iff_of_false inner (by omega)⟩

theorem after?_literal (closed : IsLiteralBody body) :
    outside.after? (literal body) = some .outside := by
  obtain ⟨place, read, outer⟩ := exists_after?_take_literal closed (literal body).length
  rw [List.take_length] at read
  rw [read, outer.mpr (.inr (Nat.le_refl _))]

end Place

end RecordQuery.Script
