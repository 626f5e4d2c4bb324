import Mathlib
import RecordQuery.Proofs.Itq.Execution
import RecordQuery.Proofs.Query.Stages

/-!
# Which conditions can be kept in order

A filter groups conditions by field, so it can hold a list of them as it is written only if those on
one field stand together and no operator comes twice on a field (`IsOrderly`). The clauses of any
mapping are orderly (`Clause.isOrderly_ofEntries`), and the scan that checks conditions accepts
every orderly list (`Condition.check_of_isOrderly`). So the check refuses exactly the lists that do
not come back from the filter as they were written (`Statement.check_iff_kept`).
-/

namespace RecordQuery

/-! ## Orderly lists -/

/-- Pairs of a field and a name are orderly if none comes twice and those on one field stand
together: nothing on another field comes between two of them. -/
structure IsOrderly (pairs : List (String × String)) : Prop where
  nodup : pairs.Nodup
  adjacent : ∀ field other, [field, other, field].Sublist (pairs.map Prod.fst) → other = field

/-- A group on a new field may stand before an orderly list. -/
theorem IsOrderly.group_append {group rest : List (String × String)} {field : String}
    (orderly : IsOrderly rest) (distinct : group.Nodup) (within : ∀ pair ∈ group, pair.1 = field)
    (apart : ∀ pair ∈ rest, pair.1 ≠ field) : IsOrderly (group ++ rest) where
  nodup := by
    refine List.nodup_append.mpr ⟨distinct, orderly.nodup, ?_⟩
    rintro pair member _ later rfl
    exact apart pair later (within pair member)
  adjacent := by
    intro first other spread
    have grouped : ∀ f ∈ group.map Prod.fst, f = field := List.forall_mem_map.mpr within
    have separate : field ∉ rest.map Prod.fst := fun member => by
      obtain ⟨pair, later, same⟩ := List.mem_map.mp member
      exact apart pair later same
    rw [List.map_append] at spread
    obtain ⟨front, back, split, inGroup, inRest⟩ := List.sublist_append_iff.mp spread
    -- The three fields are divided between the group and the rest.
    match front, back, split with
    | [], _, rfl => exact orderly.adjacent first other inRest
    | [_], _, rfl =>
      have same := grouped first (inGroup.subset List.mem_cons_self)
      exact absurd (same ▸ inRest.subset (by simp)) separate
    | [_, _], _, rfl =>
      have same := grouped first (inGroup.subset List.mem_cons_self)
      exact absurd (same ▸ inRest.subset (by simp)) separate
    | [_, _, _], _, rfl =>
      have same := grouped first (inGroup.subset List.mem_cons_self)
      exact (grouped other (inGroup.subset (by simp))).trans same.symm

/-! ## Clauses of mappings -/

namespace Clause

/-- What a clause says: its field, its operator's name, its value and whether it widens. -/
def told (clause : Clause) : String × String × Value × Bool :=
  (clause.field, clause.name, clause.value, clause.isOr)

/-- The field of a clause with its operator's name as it is written in a filter. -/
def heading (clause : Clause) : String × String :=
  (clause.field, if clause.isOr then "|" ++ clause.name else clause.name)

/-- A mapping asks for operators by field: every field and every operator on it comes once. -/
structure IsGrouping (asked : Entries Value) : Prop where
  fields : asked.HasTextKeys
  operators : ∀ entry ∈ asked, (operatorEntries entry.2).HasTextKeys

theorem heading_ofParts (field written : String) (value : Value) :
    (ofParts field written value).heading = (field, written) := by
  refine congrArg (Prod.mk field) ?_
  change (if (splitName written).2 then "|" ++ (splitName written).1 else (splitName written).1) =
    written
  unfold splitName
  split
  · rename_i name barred
    rw [if_pos rfl, ← String.toList_inj, String.toList_append, barred]
    exact congrArg (List.cons '|') String.toList_ofList
  · exact if_neg Bool.false_ne_true

theorem map_heading_ofEntries_cons (field : String) (v : Value) (rest : Entries Value) :
    (ofEntries ((.str field, v) :: rest)).map heading =
      (operatorEntries v).map (fun entry => (field, entry.1.text)) ++
        (ofEntries rest).map heading := by
  unfold ofEntries
  rw [List.flatMap_cons, List.map_append, List.map_map]
  congr 1
  exact List.map_congr_left fun entry _ => heading_ofParts field entry.1.text entry.2

/-- The fields of the clauses are keys of the mapping. -/
theorem exists_key_of_mem {asked : Entries Value} {clause : Clause}
    (member : clause ∈ ofEntries asked) : ∃ entry ∈ asked, entry.1.text = clause.field := by
  obtain ⟨entry, held, among⟩ := List.mem_flatMap.mp member
  obtain ⟨_, _, rfl⟩ := List.mem_map.mp among
  exact ⟨entry, held, rfl⟩

/-- Clauses come out of a mapping group by group. -/
theorem isOrderly_ofEntries {asked : Entries Value} (grouping : IsGrouping asked) :
    IsOrderly ((ofEntries asked).map heading) := by
  induction asked with
  | nil => exact ⟨List.nodup_nil, fun field other spread => by cases spread⟩
  | cons entry rest ih =>
    obtain ⟨key, v⟩ := entry
    obtain ⟨field, rfl⟩ := grouping.fields.textual _ List.mem_cons_self
    have later := ih ⟨grouping.fields.tail, fun entry member =>
      grouping.operators entry (List.mem_cons_of_mem _ member)⟩
    rw [map_heading_ofEntries_cons]
    refine later.group_append ?_ (List.forall_mem_map.mpr fun _ _ => rfl) ?_
    · have names := (grouping.operators _ List.mem_cons_self).nodup_text
      have paired := names.map (Prod.mk_right_injective field)
      rwa [List.map_map] at paired
    · refine List.forall_mem_map.mpr fun clause member same => ?_
      obtain ⟨entry, held, key⟩ := exists_key_of_mem member
      have fresh := (List.nodup_cons.mp grouping.fields.nodup_text).1
      exact fresh (List.mem_map.mpr ⟨entry, held, key.trans same⟩)

end Clause

namespace Itq

namespace Condition

/-- What a condition says: its field, its operator's name, its value and whether it widens. -/
def told (condition : Condition) : String × String × Value × Bool :=
  (condition.field, condition.operatorName, condition.value, condition.isOr)

/-- The field of a condition with its operator's name as it is written in a filter. -/
def heading (condition : Condition) : String × String := (condition.field, condition.writtenName)

/-- What is said of conditions and clauses tells the names as they are written. -/
theorem map_heading_of_map_told {clauses : List Clause} {conditions : List Condition}
    (same : clauses.map Clause.told = conditions.map told) :
    clauses.map Clause.heading = conditions.map heading := by
  have written := congrArg (List.map fun (field, name, _, isOr) =>
    (field, if isOr then "|" ++ name else name)) same
  rwa [List.map_map, List.map_map] at written

/-! ## Conditions in a filter -/

theorem isGrouping_ask {asked : Entries Value} (grouping : Clause.IsGrouping asked)
    (condition : Condition) : Clause.IsGrouping (ask asked condition) where
  fields := grouping.fields.put condition.field _
  operators := by
    intro entry member
    rcases Entries.mem_put member with new | held
    · rw [new]
      refine Entries.HasTextKeys.put ?_ condition.writtenName condition.value
      split
      · rename_i nested found
        obtain ⟨earlier, held, same⟩ := Entries.exists_mem_of_find? found
        have keyed := grouping.operators earlier held
        rwa [same] at keyed
      · exact .nil
    · exact grouping.operators entry held

theorem isGrouping_whereEntries (conditions : List Condition) :
    Clause.IsGrouping (whereEntries conditions) :=
  List.foldlRecOn conditions ask ⟨.nil, List.forall_mem_nil _⟩ fun _ grouping condition _ =>
    isGrouping_ask grouping condition

/-! ## The scan -/

/-- What the scan knows of the conditions before: the current field is that of the last one, every
finished field is another one that came, and every used operator came on the current field. -/
structure Remembers (before : List (String × String)) (finished : List String)
    (current? : Option String) (used : List String) : Prop where
  current : current? = before.getLast?.map Prod.fst
  finished : ∀ field ∈ finished, field ∈ before.map Prod.fst ∧ current? ≠ some field
  used : ∀ name ∈ used, ∀ field, current? = some field → (field, name) ∈ before

variable {before : List (String × String)} {finished used : List String}
  {current? : Option String} {condition : Condition}

theorem Remembers.next_current (known : Remembers before finished current? used)
    (same : current? = some condition.field) :
    Remembers (before ++ [condition.heading]) finished current?
      (condition.writtenName :: used) where
  current := by
    rw [List.getLast?_concat]
    exact same
  finished field member := by
    obtain ⟨earlier, other⟩ := known.finished field member
    rw [List.map_append]
    exact ⟨List.mem_append_left _ earlier, other⟩
  used name member field current := by
    rcases List.mem_cons.mp member with rfl | earlier
    · cases same.symm.trans current
      exact List.mem_append_right _ (List.mem_singleton_self _)
    · exact List.mem_append_left _ (known.used name earlier field current)

theorem Remembers.next_new (known : Remembers before finished current? used)
    (other : current? ≠ some condition.field) (unfinished : condition.field ∉ finished) :
    Remembers (before ++ [condition.heading]) (current?.toList ++ finished)
      (some condition.field) [condition.writtenName] where
  current := by
    rw [List.getLast?_concat]
    rfl
  finished field member := by
    rw [List.map_append, List.mem_append]
    rcases List.mem_append.mp member with last | earlier
    · have current := Option.mem_toList.mp last
      refine ⟨.inl ?_, fun same => other (same ▸ current)⟩
      rw [known.current] at current
      obtain ⟨pair, final, rfl⟩ := Option.map_eq_some_iff.mp current
      exact List.mem_map_of_mem (List.mem_of_getLast? final)
    · refine ⟨.inl (known.finished field earlier).1, fun same => ?_⟩
      cases same
      exact unfinished earlier
  used name member field current := by
    cases current
    rw [List.mem_singleton.mp member]
    exact List.mem_append_right _ (List.mem_singleton_self _)

/-- A finished field cannot come again in an orderly list, since the current one stands between. -/
theorem Remembers.not_mem_finished {after : List (String × String)}
    (known : Remembers before finished current? used)
    (orderly : IsOrderly (before ++ condition.heading :: after)) :
    condition.field ∉ finished := by
  intro member
  obtain ⟨earlier, other⟩ := known.finished condition.field member
  obtain ⟨pair, held, first⟩ := List.mem_map.mp earlier
  obtain ⟨front, last, rfl⟩ :=
    (List.eq_nil_or_concat' before).resolve_left (List.ne_nil_of_mem held)
  have current : current? = some last.1 := by
    rw [known.current, List.getLast?_concat]
    rfl
  have differs : last.1 ≠ condition.field := fun same => other (current.trans (congrArg some same))
  have inFront : condition.field ∈ front.map Prod.fst := by
    rw [List.mem_append, List.mem_singleton] at held
    rcases held with before | rfl
    · exact List.mem_map.mpr ⟨pair, before, first⟩
    · exact absurd first differs
  refine differs (orderly.adjacent condition.field last.1 ?_)
  rw [List.append_assoc, List.map_append]
  have rest : [last.1, condition.field].Sublist
      (([last] ++ condition.heading :: after).map Prod.fst) :=
    ((List.nil_sublist _).cons_cons _).cons_cons _
  exact (List.singleton_sublist.mpr inFront).append rest

/-- The scan accepts what is left of an orderly list. -/
theorem checkFrom_of_isOrderly {conditions : List Condition}
    (known : Remembers before finished current? used)
    (orderly : IsOrderly (before ++ conditions.map heading)) :
    checkFrom finished current? used conditions = .ok () := by
  induction conditions generalizing before finished current? used with
  | nil => rfl
  | cons condition rest ih =>
    rw [List.map_cons] at orderly
    have further := orderly
    rw [List.append_cons] at further
    unfold checkFrom
    dsimp only
    by_cases same : current? = some condition.field
    · have unused : condition.writtenName ∉ used := fun member => by
        have earlier := known.used _ member _ same
        exact (List.nodup_append.mp orderly.nodup).2.2 _ earlier _ List.mem_cons_self rfl
      rw [if_pos same, if_neg (by simpa using unused)]
      exact ih (known.next_current same) further
    · have unfinished := known.not_mem_finished orderly
      rw [if_neg same, if_neg (by simpa using unfinished)]
      exact ih (known.next_new same unfinished) further

/-- **The check accepts every orderly list.** -/
theorem check_of_isOrderly {conditions : List Condition}
    (orderly : IsOrderly (conditions.map heading)) : check conditions = .ok () := by
  have known : Remembers [] [] none [] :=
    ⟨rfl, List.forall_mem_nil _, fun _ none => by cases none⟩
  exact checkFrom_of_isOrderly known orderly

/-- Conditions that say what the clauses of some grouping say pass their check. -/
theorem check_of_map_told {asked : Entries Value} {conditions : List Condition}
    (grouping : Clause.IsGrouping asked)
    (same : (Clause.ofEntries asked).map Clause.told = conditions.map told) :
    check conditions = .ok () := by
  apply check_of_isOrderly
  rw [← map_heading_of_map_told same]
  exact Clause.isOrderly_ofEntries grouping

end Condition

namespace Statement

/-- **The check refuses what cannot be kept, and nothing else.** Conditions pass their check exactly
if the clauses that the statement's filter gives say what the conditions say, one after the other;
every record is then held against all of them in the order in which they are written. No mapping
that asks for operators by field says what refused conditions say. -/
theorem check_iff_kept (statement : Statement) :
    (Condition.check statement.conditions = .ok () ↔
      (Clause.ofEntries (Filter.clausesGiven statement.filterEntries)).map Clause.told =
        statement.conditions.map Condition.told) ∧
    (Condition.check statement.conditions = .ok () → ∀ record,
      Clause.passes record (Clause.ofEntries (Filter.whereEntries statement.filterEntries)) =
        Condition.allow record statement.conditions) ∧
    ∀ asked, Clause.IsGrouping asked →
      (Clause.ofEntries asked).map Clause.told = statement.conditions.map Condition.told →
        Condition.check statement.conditions = .ok () := by
  refine ⟨⟨fun checked => ?_, ?_⟩, fun checked record => ?_, fun _ => Condition.check_of_map_told⟩
  · rw [clausesGiven_filterEntries, Condition.ofEntries_whereEntries checked, List.map_map]
    rfl
  · rw [clausesGiven_filterEntries]
    exact Condition.check_of_map_told (Condition.isGrouping_whereEntries statement.conditions)
  · rw [whereEntries_filterEntries, Condition.ofEntries_whereEntries checked,
      Condition.passes_clauses]

/-- Two conditions on one field, the second one joined with `or`, are kept if they are adjacent, but
not with a condition on another field between them. -/
theorem check_iff_kept_of_between :
    let first : Condition := ⟨"a", .comparison .equal, .int 1, false⟩
    let second : Condition := ⟨"a", .comparison .greater, .int 5, true⟩
    let other : Condition := ⟨"b", .word false .isIn, .list [.int 2], false⟩
    let kept : Statement := ⟨.scan, [first, second, other], [], 0, none⟩
    let refused : Statement := ⟨.scan, [first, other, second], [], 0, none⟩
    let asked := Filter.clausesGiven kept.filterEntries
    Condition.check kept.conditions = .ok () ∧ Clause.IsGrouping asked ∧
      (Clause.ofEntries asked).map Clause.told = kept.conditions.map Condition.told ∧
      (∀ record, Clause.passes record (Clause.ofEntries (Filter.whereEntries kept.filterEntries)) =
        Condition.allow record kept.conditions) ∧
      Condition.check refused.conditions = .error (.notAdjacent "a") ∧
      (Clause.ofEntries (Filter.clausesGiven refused.filterEntries)).map Clause.told ≠
        refused.conditions.map Condition.told := by
  intro first second other kept refused asked
  have checked : Condition.check kept.conditions = .ok () := by decide
  have failed : Condition.check refused.conditions = .error (.notAdjacent "a") := by decide
  have grouping : Clause.IsGrouping (Filter.clausesGiven kept.filterEntries) := by
    rw [clausesGiven_filterEntries]
    exact Condition.isGrouping_whereEntries kept.conditions
  obtain ⟨back, evaluated, -⟩ := check_iff_kept kept
  refine ⟨checked, grouping, back.mp checked, evaluated checked, failed, fun same => ?_⟩
  have accepted := (check_iff_kept refused).1.mpr same
  cases failed.symm.trans accepted

end Statement

end Itq

end RecordQuery
