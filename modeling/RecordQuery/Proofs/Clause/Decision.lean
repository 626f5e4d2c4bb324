import Mathlib
import RecordQuery.Clause

/-!
# Which clause decides

A list of clauses passes a record when one of its clauses lets the record in and no later one turns
it away (`Clause.passes_iff_isDecided`). The first clause lets a record in unless it fails; a later
one does if it widens and holds. Only clauses that restrict turn a record away, and clauses with an
unknown operator neither let in nor turn away, the first place apart.
-/

namespace RecordQuery.Clause

variable {record : Value} {clauses : List Clause} {clause : Clause}

/-- Whether the operator of the clause is known. -/
def isResolved (clause : Clause) : Bool := clause.operator.isSome

/-- The clause lets the record in by itself, given the clauses before it. At the first place it is
enough not to fail, and the bar does not matter. -/
def Admits (record : Value) (before : List Clause) (clause : Clause) : Prop :=
  (before = [] ∧ (clause.isResolved = false ∨ clause.verdict? record = some true)) ∨
    (before ≠ [] ∧ clause.isOr = true ∧ clause.verdict? record = some true)

/-- The clause does not turn away a record that was let in before it. -/
def Retains (record : Value) (clause : Clause) : Prop :=
  clause.isResolved = true → clause.isOr = false → clause.verdict? record = some true

/-- Some clause lets the record in, and none after it turns the record away. -/
def IsDecided (record : Value) (clauses : List Clause) : Prop :=
  ∃ before clause after, clauses = before ++ clause :: after ∧ Admits record before clause ∧
    ∀ later ∈ after, Retains record later

theorem verdict?_of_not_isResolved (unresolved : clause.isResolved = false) :
    clause.verdict? record = none := by
  have unknown : clause.operator = none :=
    Option.isNone_iff_eq_none.mp (Option.isSome_eq_false_iff.mp unresolved)
  unfold verdict?
  rw [unknown]
  rfl

theorem exists_verdict? (resolved : clause.isResolved = true) (record : Value) :
    ∃ verdict, clause.verdict? record = some verdict := by
  obtain ⟨operator, known⟩ := Option.isSome_iff_exists.mp resolved
  unfold verdict?
  rw [known]
  exact ⟨_, rfl⟩

/-! ## One more clause -/

theorem join_of_not_isResolved (unresolved : clause.isResolved = false) (keep : Bool) :
    join record keep clause = keep := by
  unfold join
  rw [verdict?_of_not_isResolved unresolved]

/-- After a further clause a record is in if it was in and is not turned away, or is let in now. -/
theorem join_eq_true_iff {keep : Bool} : join record keep clause = true ↔
    (keep = true ∧ Retains record clause) ∨
      (clause.isOr = true ∧ clause.verdict? record = some true) := by
  unfold join Retains
  cases resolved : clause.isResolved with
  | false =>
    rw [verdict?_of_not_isResolved resolved]
    simp
  | true =>
    obtain ⟨verdict, told⟩ := exists_verdict? resolved record
    rw [told]
    cases clause.isOr <;> cases verdict <;> simp

theorem passes_cons (record : Value) (first : Clause) (rest : List Clause) :
    passes record (first :: rest) =
      rest.foldl (join record) ((first.verdict? record).getD true) := rfl

theorem passes_concat (filled : clauses ≠ []) (clause : Clause) :
    passes record (clauses ++ [clause]) = join record (passes record clauses) clause := by
  obtain ⟨first, rest, rfl⟩ := List.exists_cons_of_ne_nil filled
  exact List.foldl_append ..

/-- A further clause decides if it lets the record in; otherwise an earlier one goes on to decide. -/
theorem isDecided_concat (filled : clauses ≠ []) (clause : Clause) :
    IsDecided record (clauses ++ [clause]) ↔ (IsDecided record clauses ∧ Retains record clause) ∨
      (clause.isOr = true ∧ clause.verdict? record = some true) := by
  constructor
  · rintro ⟨before, decisive, after, split, admits, retain⟩
    rcases List.eq_nil_or_concat after with rfl | ⟨between, last, rfl⟩
    · -- The further clause is the one that decides, and it is not the first.
      obtain ⟨rfl, same⟩ := List.append_inj' split rfl
      cases same
      rcases admits with ⟨first, -⟩ | ⟨-, admitted⟩
      · exact absurd first filled
      · exact .inr admitted
    · rw [List.concat_eq_append, ← List.cons_append, ← List.append_assoc] at split
      obtain ⟨rfl, same⟩ := List.append_inj' split rfl
      cases same
      rw [List.concat_eq_append] at retain
      refine .inl ⟨⟨before, decisive, between, rfl, admits, fun later member => ?_⟩, ?_⟩
      · exact retain later (List.mem_append_left _ member)
      · exact retain clause (List.mem_append_right _ (List.mem_singleton_self clause))
  · rintro (⟨⟨before, decisive, after, rfl, admits, retain⟩, retained⟩ | admitted)
    · refine ⟨before, decisive, after ++ [clause], by simp, admits, fun later member => ?_⟩
      rcases List.mem_append.mp member with earlier | last
      · exact retain later earlier
      · rw [List.mem_singleton.mp last]
        exact retained
    · exact ⟨clauses, clause, [], rfl, .inr ⟨filled, admitted⟩, fun _ none => by cases none⟩

/-- The first clause decides alone. -/
theorem isDecided_singleton (clause : Clause) : IsDecided record [clause] ↔
    clause.isResolved = false ∨ clause.verdict? record = some true := by
  constructor
  · rintro ⟨before, decisive, after, split, ⟨rfl, admitted⟩ | ⟨later, -⟩, -⟩
    · cases split
      exact admitted
    · obtain ⟨first, rest, rfl⟩ := List.exists_cons_of_ne_nil later
      simp at split
  · intro admitted
    exact ⟨[], clause, [], rfl, .inl ⟨rfl, admitted⟩, fun _ none => by cases none⟩

theorem passes_singleton (clause : Clause) : passes record [clause] = true ↔
    clause.isResolved = false ∨ clause.verdict? record = some true := by
  have alone : passes record [clause] = (clause.verdict? record).getD true := rfl
  rw [alone]
  cases resolved : clause.isResolved with
  | false => simp [verdict?_of_not_isResolved resolved]
  | true =>
    obtain ⟨verdict, told⟩ := exists_verdict? resolved record
    simp [told]

/-- The fold over the clauses looks for a clause that decides. -/
theorem passes_iff_isDecided (filled : clauses ≠ []) :
    passes record clauses = true ↔ IsDecided record clauses := by
  induction clauses using List.reverseRecOn with
  | nil => exact absurd rfl filled
  | append_singleton clauses clause ih =>
    rcases eq_or_ne clauses [] with rfl | earlier
    · exact (passes_singleton clause).trans (isDecided_singleton clause).symm
    · rw [passes_concat earlier, join_eq_true_iff, ih earlier, isDecided_concat earlier]

/-! ## Lists that decide alike -/

/-- Two clauses say the same of a record and are joined in the same way. -/
def AgreeOn (record : Value) (clause other : Clause) : Prop :=
  clause.verdict? record = other.verdict? record ∧ clause.isOr = other.isOr

theorem AgreeOn.join_eq {other : Clause} (agree : AgreeOn record clause other) (keep : Bool) :
    join record keep clause = join record keep other := by
  unfold join
  rw [agree.1, agree.2]

/-- Clauses that agree one by one pass the same records together. -/
theorem passes_of_agree {others : List Clause}
    (agree : List.Forall₂ (AgreeOn record) clauses others) :
    passes record clauses = passes record others := by
  cases agree with
  | nil => rfl
  | @cons first other rest later same agree =>
    have joined (start : Bool) :
        rest.foldl (join record) start = later.foldl (join record) start := by
      induction agree generalizing start with
      | nil => rfl
      | cons agree _ ih => rw [List.foldl_cons, List.foldl_cons, agree.join_eq, ih]
    rw [passes_cons, passes_cons, same.1, joined]

/-- Clauses of unknown operators after the first one do not matter. -/
theorem passes_filter_isResolved (record : Value) (first : Clause) (rest : List Clause) :
    passes record (first :: rest.filter isResolved) = passes record (first :: rest) := by
  rw [passes_cons, passes_cons, List.foldl_filter]
  congr 1
  funext keep clause
  split
  · rfl
  · rename_i unresolved
    exact (join_of_not_isResolved (eq_false_of_ne_true unresolved) keep).symm

theorem join_of_restricting (restricts : clause.isOr = false) (keep : Bool) :
    join record keep clause = (keep && clause.verdict? record != some false) := by
  unfold join
  rw [restricts]
  rcases clause.verdict? record with _ | _ | _ <;> simp

theorem foldl_join_of_restricting (restricting : ∀ clause ∈ clauses, clause.isOr = false)
    (keep : Bool) : clauses.foldl (join record) keep =
      (keep && clauses.all fun clause => clause.verdict? record != some false) := by
  induction clauses generalizing keep with
  | nil => simp
  | cons clause rest ih =>
    rw [List.foldl_cons, join_of_restricting (restricting clause List.mem_cons_self),
      ih fun later member => restricting later (List.mem_cons_of_mem clause member),
      List.all_cons, Bool.and_assoc]

/-- Clauses that all restrict pass a record together if none of them fails. -/
theorem passes_of_restricting (restricting : ∀ clause ∈ clauses, clause.isOr = false) :
    passes record clauses = clauses.all fun clause => clause.verdict? record != some false := by
  cases clauses with
  | nil => rfl
  | cons first rest =>
    have begins : (first.verdict? record).getD true = (first.verdict? record != some false) := by
      rcases first.verdict? record with _ | _ | _ <;> rfl
    rw [passes_cons, List.all_cons, begins, foldl_join_of_restricting]
    exact fun later member => restricting later (List.mem_cons_of_mem first member)

/-- **Clauses have no precedence.** A list of clauses passes a record just when it is empty or one
of its clauses decides: it lets the record in, and no later one turns the record away. So a further
clause joins the result of all those before it, clauses of unknown operators after the first one may
be left out, and clauses that all restrict may change places. -/
theorem passes_iff_decisive (record : Value) (clauses : List Clause) :
    (passes record clauses = true ↔ clauses = [] ∨ ∃ before clause after,
      clauses = before ++ clause :: after ∧ Admits record before clause ∧
        ∀ later ∈ after, Retains record later) ∧
      (clauses ≠ [] → ∀ clause,
        passes record (clauses ++ [clause]) = join record (passes record clauses) clause) ∧
      (∀ first rest fewer, clauses = first :: rest →
        fewer.filter isResolved = rest.filter isResolved →
          passes record (first :: fewer) = passes record clauses) ∧
      ((∀ clause ∈ clauses, clause.isOr = false) → ∀ others, clauses.Perm others →
        passes record others = passes record clauses) := by
  refine ⟨?_, passes_concat, ?_, ?_⟩
  · rcases eq_or_ne clauses [] with rfl | filled
    · exact iff_of_true rfl (.inl rfl)
    · rw [passes_iff_isDecided filled, or_iff_right filled]
      rfl
  · rintro first rest fewer rfl same
    rw [← passes_filter_isResolved, same, passes_filter_isResolved]
  · intro restricting others perm
    have othersRestrict : ∀ clause ∈ others, clause.isOr = false := fun clause member =>
      restricting clause (perm.mem_iff.mpr member)
    rw [passes_of_restricting restricting, passes_of_restricting othersRestrict, perm.all_eq]

/-- An unknown operator takes the first place, a failing clause follows, and a clause with a bar lets
the record in again. Without the later unknown operator nothing changes, and of clauses that all
restrict the last may come first. -/
theorem passes_iff_decisive_of_unknown :
    let record := Value.map [(.str "a", .int 1), (.str "b", .int 2)]
    let unknown := ofParts "a" "|bogus" (.int 1)
    let failing := ofParts "a" ">" (.int 5)
    let widening := ofParts "b" "|==" (.int 2)
    let ignored := ofParts "b" "nope" (.int 3)
    let holding := ofParts "b" "<=" (.int 2)
    passes record [unknown, failing, widening, ignored, holding] = true ∧
      (∃ before clause after,
        [unknown, failing, widening, ignored, holding] = before ++ clause :: after ∧
          Admits record before clause ∧ ∀ later ∈ after, Retains record later) ∧
      passes record [unknown, failing, widening, holding] = true ∧
      passes record [holding, failing, ignored] = passes record [ignored, holding, failing] := by
  intro record unknown failing widening ignored holding
  have all : passes record [unknown, failing, widening, ignored, holding] = true := by decide
  obtain ⟨decisive, -, fewer, -⟩ :=
    passes_iff_decisive record [unknown, failing, widening, ignored, holding]
  obtain ⟨-, -, -, places⟩ := passes_iff_decisive record [ignored, holding, failing]
  have restricting : ∀ clause ∈ [ignored, holding, failing], clause.isOr = false := by
    simp only [List.forall_mem_cons]
    exact ⟨rfl, rfl, rfl, fun _ none => by cases none⟩
  refine ⟨all, (decisive.mp all).resolve_left (List.cons_ne_nil _ _), ?_, ?_⟩
  · exact (fewer unknown _ [failing, widening, holding] rfl rfl).trans all
  · have swapped : [ignored, holding, failing].Perm [holding, failing, ignored] :=
      (List.perm_append_singleton ignored [holding, failing]).symm
    exact places restricting _ swapped

end RecordQuery.Clause
