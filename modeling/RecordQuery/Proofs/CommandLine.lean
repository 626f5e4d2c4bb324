import Mathlib
import RecordQuery.CommandLine
import RecordQuery.Proofs.Outcome

/-!
# Arguments behind others

Arguments are read from left to right, so what stands behind arguments that make up a command line
by themselves is read on top of it (`readItems_append`): an option with its value behind them only
sets this value (`ofArguments_option`). A separator would stop that, as no option follows one.
-/

namespace RecordQuery.CommandLine

/-! ## Looks -/

theorem longItem_ne_separator (cs : List Char) : longItem cs ≠ .ok .separator := by
  unfold longItem
  dsimp only
  split
  · exact fun same => by cases same
  · split
    · split <;> exact fun same => by cases same
    · exact fun same => by cases same
    · exact fun same => by cases same

theorem eq_of_classify {argument : String} (looks : classify argument = .ok .separator) :
    argument = "--" := by
  unfold classify at looks
  split at looks
  · rename_i same
    exact String.toList_injective same
  · exact absurd looks (longItem_ne_separator _)
  · split at looks
    · cases looks
    · split at looks <;> cases looks
  · cases looks

/-- An argument that does not begin with a hyphen is a value. -/
theorem classify_value {argument : String} (noHyphen : argument.toList.head? ≠ some '-') :
    classify argument = .ok (.value argument) := by
  unfold classify
  split
  · rename_i same
    exact absurd (by rw [same]; rfl) noHyphen
  · rename_i same
    exact absurd (by rw [same]; rfl) noHyphen
  · rename_i same
    exact absurd (by rw [same]; rfl) noHyphen
  · rfl

variable {front rest : List String} {items more : List Item}

theorem classifyAll_cons {argument : String} {item : Item} (looks : classify argument = .ok item)
    (option : item ≠ .separator) :
    classifyAll (argument :: rest) = (classifyAll rest).map (item :: ·) := by
  rw [classifyAll, looks]
  cases item with
  | separator => exact absurd rfl option
  | _ => cases classifyAll rest <;> rfl

theorem classifyAll_append (noSeparator : "--" ∉ front) (looks : classifyAll front = .ok items)
    (later : classifyAll rest = .ok more) :
    classifyAll (front ++ rest) = .ok (items ++ more) ∧ .separator ∉ items := by
  induction front generalizing items with
  | nil =>
    cases looks
    exact ⟨later, List.not_mem_nil⟩
  | cons argument front ih =>
    obtain ⟨other, noSeparator⟩ := not_or.mp (mt List.mem_cons.mpr noSeparator)
    cases first : classify argument with
    | error usage =>
      rw [classifyAll, first] at looks
      cases looks
    | ok item =>
      have option : item ≠ .separator := by
        rintro rfl
        exact other (eq_of_classify first).symm
      rw [classifyAll_cons first option] at looks
      rw [List.cons_append, classifyAll_cons first option]
      cases told : classifyAll front with
      | error usage =>
        rw [told] at looks
        cases looks
      | ok items =>
        rw [told] at looks
        cases looks
        obtain ⟨all, free⟩ := ih noSeparator told
        rw [all]
        exact ⟨rfl, fun member => (List.mem_cons.mp member).elim option.symm free⟩

/-! ## Reading on -/

section

variable {p next : Progress} {name : Name} {value : Option String} {behind : List Char}
  {flags : List Name} (others : List Item)

theorem readItems_flag (flag : name.takesValue = false) (set : p.setFlags [name] = .ok next) :
    readItems p (.long name none :: others) = readItems next others := by
  simp only [readItems, flag, set]
  rfl

theorem readItems_flags (group : shortGroup name behind = .ok ⟨flags, none⟩)
    (set : p.setFlags flags = .ok next) :
    readItems p (.short name behind :: others) = readItems next others := by
  rw [readItems.eq_def]
  dsimp only
  rw [group]
  dsimp only
  rw [set]
  rfl

theorem readItems_group {valued : Name} {v : String}
    (group : shortGroup name behind = .ok ⟨flags, some (valued, some v)⟩)
    (set : p.setFlags flags = .ok next) :
    readItems p (.short name behind :: others) = readItems (next.setValue valued v) others := by
  rw [readItems.eq_def]
  dsimp only
  rw [group]
  dsimp only
  rw [set]
  rfl

theorem readItems_group_value {valued : Name} {v : String}
    (group : shortGroup name behind = .ok ⟨flags, some (valued, none)⟩)
    (set : p.setFlags flags = .ok next) :
    readItems p (.short name behind :: .value v :: others) =
      readItems (next.setValue valued v) others := by
  rw [readItems.eq_def]
  dsimp only
  rw [group]
  dsimp only
  rw [set]
  rfl

end

/-- What is read behind other items goes on from what these amount to. -/
theorem readItems_append {p q : Progress} (rest : List Item) (free : .separator ∉ items)
    (option : rest.head? ≠ some .separator) (read : readItems p items = .ok q) :
    readItems p (items ++ rest) = readItems q rest := by
  have behind {item : Item} {items : List Item} (free : .separator ∉ item :: items) :
      .separator ∉ items := fun member => free (List.mem_cons_of_mem item member)
  fun_induction readItems p items with
  | case1 p =>
    cases read
    rfl
  | case2 | case3 | case5 | case6 | case7 => simp at free
  | case4 p s items single ih =>
    rw [List.cons_append, readItems]
    · exact ih (behind free) read
    · intro others same
      cases items with
      | nil =>
        rw [List.nil_append] at same
        exact option (by rw [same]; rfl)
      | cons item items =>
        obtain ⟨rfl, -⟩ := List.cons.inj same
        exact single items rfl
  | case8 p items ih => exact ih (behind free) read
  | case9 p name v items takes ih =>
    rw [List.cons_append, readItems]
    · exact ih (behind free) read
    · exact takes
  | case10 p name v items takes ih =>
    rw [List.cons_append, List.cons_append, readItems]
    · exact ih (behind (behind free)) read
    · exact takes
  | case11 | case12 | case14 | case18 => cases read
  | case13 p name items flag ih =>
    obtain ⟨next, set, read⟩ := bind_eq_ok.mp read
    exact (readItems_flag _ flag set).trans (ih next (behind free) read)
  | case15 p name letters flags items group ih =>
    obtain ⟨next, set, read⟩ := bind_eq_ok.mp read
    exact (readItems_flags _ group set).trans (ih next (behind free) read)
  | case16 p name letters flags valued v items group ih =>
    obtain ⟨next, set, read⟩ := bind_eq_ok.mp read
    exact (readItems_group _ group set).trans (ih next (behind free) read)
  | case17 p name letters flags valued v items group ih =>
    obtain ⟨next, set, read⟩ := bind_eq_ok.mp read
    exact (readItems_group_value _ group set).trans (ih next (behind (behind free)) read)

/-! ## Options behind other arguments -/

/-- The command line with a value for an option. -/
def withValue (line : CommandLine) (name : Name) (text : String) : CommandLine :=
  (Progress.setValue ⟨none, line, false⟩ name text).given

theorem readItems_option {p : Progress} {name : Name} (takes : name.takesValue = true)
    (text : String) : readItems p [.short name [], .value text] = .ok (p.setValue name text) := by
  have group : shortGroup name [] = .ok ⟨[], some (name, none)⟩ := by
    unfold shortGroup groupOf
    rw [takes]
    rfl
  exact readItems_group_value [] group rfl

/-- An option with its value behind arguments that make up a command line sets this value. -/
theorem ofArguments_option {line : CommandLine} {option text : String} {name : Name}
    (read : ofArguments front = .ok line) (noSeparator : "--" ∉ front)
    (looks : classify option = .ok (.short name [])) (takes : name.takesValue = true)
    (noHyphen : text.toList.head? ≠ some '-') :
    ofArguments (front ++ [option, text]) = .ok (line.withValue name text) := by
  obtain ⟨items, told, read⟩ := bind_eq_ok.mp read
  obtain ⟨p, amounts, read⟩ := bind_eq_ok.mp read
  have behind : classifyAll [option, text] = .ok [.short name [], .value text] := by
    have option : Item.short name [] ≠ .separator := fun same => by cases same
    have value : Item.value text ≠ .separator := fun same => by cases same
    rw [classifyAll_cons looks option, classifyAll_cons (classify_value noHyphen) value]
    rfl
  obtain ⟨all, free⟩ := classifyAll_append noSeparator told behind
  have more := (readItems_append [.short name [], .value text] free (by simp) amounts).trans
    (readItems_option takes text)
  refine bind_eq_ok.mpr ⟨_, all, bind_eq_ok.mpr ⟨_, more, ?_⟩⟩
  obtain ⟨records, given, extra⟩ := p
  cases records with
  | none => cases read
  | some records =>
    cases extra with
    | true => cases read
    | false =>
      cases read
      cases name <;> rfl

end RecordQuery.CommandLine
