import Mathlib.Data.List.Forall2

/-!
# Outcomes of steps in sequence

A sequence of steps that may fail succeeds with a result just when each step does.
-/

namespace RecordQuery

variable {ε α β : Type}

theorem bind_eq_ok {step : Except ε α} {next : α → Except ε β} {result : β} :
    step >>= next = .ok result ↔ ∃ a, step = .ok a ∧ next a = .ok result := by
  cases step with
  | error e =>
    constructor
    · intro failed
      cases failed
    · rintro ⟨a, succeeded, _⟩
      cases succeeded
  | ok a =>
    constructor
    · intro succeeded
      exact ⟨a, rfl, succeeded⟩
    · rintro ⟨b, same, succeeded⟩
      cases same
      exact succeeded

/-- One step for each item: all succeed just when the results are those of the items in turn. -/
theorem mapM_eq_ok {step : α → Except ε β} {items : List α} {results : List β} :
    items.mapM step = .ok results ↔
      List.Forall₂ (fun item result => step item = .ok result) items results := by
  induction items generalizing results with
  | nil =>
    rw [List.forall₂_nil_left_iff, List.mapM_nil]
    constructor
    · intro succeeded
      cases succeeded
      rfl
    · rintro rfl
      rfl
  | cons item items ih =>
    rw [List.mapM_cons, bind_eq_ok, List.forall₂_cons_left_iff]
    constructor
    · rintro ⟨result, first, rest⟩
      obtain ⟨others, further, succeeded⟩ := bind_eq_ok.mp rest
      cases succeeded
      exact ⟨result, others, first, ih.mp further, rfl⟩
    · rintro ⟨result, others, first, further, rfl⟩
      exact ⟨result, first, bind_eq_ok.mpr ⟨others, ih.mpr further, rfl⟩⟩

end RecordQuery
