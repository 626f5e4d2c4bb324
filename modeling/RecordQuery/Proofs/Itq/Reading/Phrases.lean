import RecordQuery.Proofs.Itq.Grammar
import RecordQuery.Proofs.Outcome

/-!
# Readers and phrases

Every reader is held against the phrases of the grammar. What it reads is a phrase at the front of
the tokens, and it reads each phrase whole, unless the tokens after the phrase go on with a mark that
continues it (`Reads`).
-/

namespace RecordQuery.Itq

open Grammar

variable {α : Type}

/-! ## Marks -/

/-- What tells by its first token which clause or continuation comes next. -/
inductive Mark where
  | symbol (s : Symbol)
  | keyword (k : Keyword)
  deriving DecidableEq

/-- The mark at the front of tokens. -/
def Mark.front? : List Token → Option Mark
  | .symbol s :: _ => some (.symbol s)
  | .keyword k _ :: _ => some (.keyword k)
  | _ => none

/-- The tokens begin with none of the marks, so they do not continue what stands before them. -/
def Avoids (marks : List Mark) (ts : List Token) : Prop :=
  ∀ mark ∈ marks, Mark.front? ts ≠ some mark

/-- The tokens are none, or they begin with the mark. -/
def Opens (mark : Mark) (ts : List Token) : Prop := ts = [] ∨ Mark.front? ts = some mark

theorem avoids_none (ts : List Token) : Avoids [] ts := by
  intro mark member
  cases member

theorem avoids_nil (marks : List Mark) : Avoids marks [] := by
  intro mark _ front
  cases front

theorem avoids_of_front {marks : List Mark} {mark : Mark} {ts : List Token}
    (front : Mark.front? ts = some mark) (other : mark ∉ marks) : Avoids marks ts := by
  intro m member same
  rw [front] at same
  cases same
  exact other member

theorem Avoids.mono {marks fewer : List Mark} {ts : List Token} (avoids : Avoids marks ts)
    (subset : fewer ⊆ marks) : Avoids fewer ts := by
  intro mark member
  exact avoids mark (subset member)

theorem Mark.front?_append {ts : List Token} (filled : ts ≠ []) (rest : List Token) :
    front? (ts ++ rest) = front? ts := by
  cases ts with
  | nil => exact absurd rfl filled
  | cons t ts => cases t <;> rfl

/-- A clause of another mark may come between a phrase and the tokens that do not continue it. -/
theorem Avoids.append {marks : List Mark} {mark : Mark} {ts rest : List Token}
    (opens : Opens mark ts) (other : mark ∉ marks) (avoids : Avoids marks rest) :
    Avoids marks (ts ++ rest) := by
  intro m member front
  rcases opens with none | opened
  · rw [none] at front
    exact avoids m member front
  · have filled : ts ≠ [] := by
      intro none
      rw [none] at opened
      cases opened
    rw [← Mark.front?_append filled rest] at opened
    exact avoids_of_front opened other m member front

/-! ## Readers and phrases -/

/-- What the reader reads is a phrase at the front of the tokens. -/
def IsSound (reader : Reader α) (Phrase : List Token → α → Prop) : Prop :=
  ∀ {ts : List Token} {a : α} {rest : List Token}, reader ts = .ok (a, rest) →
    ∃ used, ts = used ++ rest ∧ Phrase used a

/-- The reader reads exactly the phrases, up to tokens that avoid the marks. -/
structure Reads (reader : Reader α) (Phrase : List Token → α → Prop) (marks : List Mark) :
    Prop where
  sound : IsSound reader Phrase
  complete : ∀ {used : List Token} {a : α} {rest : List Token}, Phrase used a →
    Avoids marks rest → reader (used ++ rest) = .ok (a, rest)

namespace Read

/-! ## Single tokens -/

theorem symbol_eq_ok {s : Symbol} {ts rest : List Token} :
    symbol s ts = .ok ((), rest) ↔ ts = .symbol s :: rest := by
  constructor
  · intro read
    unfold symbol at read
    split at read
    · split at read
      · rename_i same
        cases read
        rw [same]
      · cases read
    · cases read
  · rintro rfl
    simp [symbol]

theorem keyword_eq_ok {k : Keyword} {ts rest : List Token} :
    keyword k ts = .ok ((), rest) ↔ ∃ word, ts = .keyword k word :: rest := by
  constructor
  · intro read
    unfold keyword at read
    split at read
    · split at read
      · rename_i word _ same
        cases read
        exact ⟨word, by rw [same]⟩
      · cases read
    · cases read
  · rintro ⟨word, rfl⟩
    simp [keyword]

theorem identifier_eq_ok {ts rest : List Token} {name : String} :
    identifier ts = .ok (name, rest) ↔ ts = .identifier name :: rest := by
  constructor
  · intro read
    unfold identifier at read
    split at read <;> cases read
    rfl
  · rintro rfl
    rfl

theorem integer_eq_ok {ts rest : List Token} {n : Int} :
    integer ts = .ok (n, rest) ↔ ts = .integer n :: rest := by
  constructor
  · intro read
    unfold integer at read
    split at read <;> cases read
    rfl
  · rintro rfl
    rfl

theorem string_eq_ok {ts rest : List Token} {v : Value} :
    string ts = .ok (v, rest) ↔ ∃ s : CodeText, v = .str s.text ∧ ts = .string s :: rest := by
  constructor
  · intro read
    unfold string at read
    split at read <;> cases read
    exact ⟨_, rfl, rfl⟩
  · rintro ⟨s, rfl, rfl⟩
    rfl

end Read

/-! ## Lists of phrases -/

/-- A list of phrases has a first one, and perhaps a list of phrases after a comma. -/
theorem Grammar.IsListOf.uncons {Item : List Token → α → Prop} {ts : List Token} {as : List α}
    (list : IsListOf Item ts as) :
    ∃ us a, Item us a ∧ ((ts = us ∧ as = [a]) ∨
      ∃ vs bs, IsListOf Item vs bs ∧ ts = us ++ .symbol .comma :: vs ∧ as = a :: bs) := by
  induction list with
  | single item => exact ⟨_, _, item, .inl ⟨rfl, rfl⟩⟩
  | more before item ih =>
    obtain ⟨us, a, first, ⟨tokens, values⟩ | ⟨vs, bs, others, tokens, values⟩⟩ := ih
    · refine ⟨us, a, first, .inr ⟨_, _, .single item, ?_, ?_⟩⟩
      · rw [tokens]
      · rw [values]
        rfl
    · refine ⟨us, a, first, .inr ⟨_, _, .more others item, ?_, ?_⟩⟩
      · rw [tokens, List.append_assoc]
        rfl
      · rw [values]
        rfl

/-- A list of phrases may be longer by one at its front. -/
theorem Grammar.IsListOf.cons {Item : List Token → α → Prop} {ts us : List Token} {a : α}
    {as : List α} (item : Item ts a) (list : IsListOf Item us as) :
    IsListOf Item (ts ++ .symbol .comma :: us) (a :: as) := by
  induction list with
  | single other => exact .more (.single item) other
  | more before other ih =>
    have longer := IsListOf.more ih other
    rwa [List.append_assoc] at longer

end RecordQuery.Itq
