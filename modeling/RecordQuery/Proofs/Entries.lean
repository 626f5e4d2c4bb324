import RecordQuery.Proofs.Value.Sameness
import RecordQuery.Value.Text

/-!
# Mappings by key

Looking up in mappings put together, and setting keys that are missing or stand last. Whatever the
key, setting it makes the mapping hold the new value under it and adds nothing else, and no key comes
twice (`hasDistinctKeys_put`). Under a textual key a mapping that was put together key by key holds
what was set last (`find?_ofPairs`). Keys that are all texts are told apart by their text
(`HasTextKeys.nodup_text`).
-/

namespace RecordQuery.Entries

variable {α β : Type}

theorem find?_append (entries others : Entries α) (key : Value) :
    Entries.find? (entries ++ others) key = (entries.find? key).or (others.find? key) := by
  unfold Entries.find?
  rw [List.find?_append, Option.map_or]

theorem hasKey_append (entries others : Entries α) (key : Value) :
    Entries.hasKey (entries ++ others) key = (entries.hasKey key || others.hasKey key) :=
  List.any_append

theorem hasKey_singleton (name other : String) (value : α) :
    Entries.hasKey [(.str name, value)] (.str other) = (name == other) :=
  Bool.or_false _

theorem find?_of_hasKey_eq_false {entries : Entries α} {key : Value}
    (missing : entries.hasKey key = false) : entries.find? key = none := by
  unfold Entries.find?
  rw [Option.map_eq_none_iff, List.find?_eq_none]
  exact List.any_eq_false.mp missing

/-- Setting a key that is not there puts it at the end. -/
theorem put_of_hasKey_eq_false {entries : Entries α} {key : Value}
    (missing : entries.hasKey key = false) (value : α) :
    entries.put key value = entries ++ [(key, value)] := by
  unfold Entries.put
  rw [missing]
  rfl

/-- Setting the last key changes the last value only. -/
theorem put_last {entries : Entries α} {name : String}
    (missing : entries.hasKey (.str name) = false) (value value' : α) :
    Entries.put (entries ++ [(.str name, value)]) (.str name) value' =
      entries ++ [(.str name, value')] := by
  have held : Entries.hasKey (entries ++ [(.str name, value)]) (.str name) = true := by
    rw [hasKey_append, hasKey_singleton, beq_self_eq_true, Bool.or_true]
  have kept : entries.map (fun entry =>
      if entry.1.isSame (.str name) then (entry.1, value') else entry) = entries := by
    refine (List.map_congr_left fun entry member => ?_).trans (List.map_id entries)
    rw [if_neg (List.any_eq_false.mp missing entry member)]
    rfl
  have last : (Value.str name).isSame (.str name) = true := beq_self_eq_true name
  unfold Entries.put
  rw [if_pos held, List.map_append, kept, List.map_singleton, if_pos last]

theorem mem_put {entries : Entries α} {key : Value} {value : α} {entry : Value × α}
    (member : entry ∈ entries.put key value) : entry.2 = value ∨ entry ∈ entries := by
  unfold Entries.put at member
  split at member
  · obtain ⟨earlier, held, rfl⟩ := List.mem_map.mp member
    split
    · exact .inl rfl
    · exact .inr held
  · rcases List.mem_append.mp member with held | new
    · exact .inr held
    · rw [List.mem_singleton.mp new]
      exact .inl rfl

theorem fst_mem_put {entries : Entries α} {key : Value} {value : α} {entry : Value × α}
    (member : entry ∈ entries.put key value) :
    entry.1 = key ∨ ∃ earlier ∈ entries, earlier.1 = entry.1 := by
  unfold Entries.put at member
  split at member
  · obtain ⟨earlier, held, rfl⟩ := List.mem_map.mp member
    refine .inr ⟨earlier, held, ?_⟩
    split <;> rfl
  · rcases List.mem_append.mp member with held | new
    · exact .inr ⟨entry, held, rfl⟩
    · rw [List.mem_singleton.mp new]
      exact .inl rfl

theorem exists_mem_of_find? {entries : Entries α} {key : Value} {value : α}
    (found : entries.find? key = some value) : ∃ entry ∈ entries, entry.2 = value := by
  obtain ⟨entry, first, same⟩ := Option.map_eq_some_iff.mp found
  exact ⟨entry, List.mem_of_find?_eq_some first, same⟩

theorem find?_replace (entries : Entries α) (key : Value) (value : α) :
    Entries.find? (entries.map fun entry =>
      if entry.1.isSame key then (entry.1, value) else entry) key =
        (entries.find? key).map fun _ => value := by
  induction entries with
  | nil => rfl
  | cons entry rest ih =>
    by_cases same : entry.1.isSame key = true
    · simp [Entries.find?, same]
    · simpa [Entries.find?, same] using ih

theorem find?_put_self (entries : Entries α) (key : Value) (value : α) :
    (entries.put key value).find? key = some value := by
  by_cases held : entries.hasKey key = true
  · obtain ⟨entry, member, same⟩ := List.any_eq_true.mp held
    have found : (entries.find? key).isSome = true := by
      rw [Entries.find?, Option.isSome_map]
      exact List.find?_isSome.mpr ⟨entry, member, same⟩
    obtain ⟨earlier, found⟩ := Option.isSome_iff_exists.mp found
    rw [Entries.put, if_pos held, find?_replace, found]
    rfl
  · have missing := eq_false_of_ne_true held
    rw [put_of_hasKey_eq_false missing, find?_append, find?_of_hasKey_eq_false missing]
    simp [Entries.find?, Value.isSame_self]

/-- Setting a key adds nothing to the entries that a test of keys keeps, if it keeps no such key. -/
theorem filter_put (entries : Entries α) {key : Value} (value : α) (keeps : Value → Bool)
    (dropped : ∀ other, other.isSame key = true → keeps other = false) :
    (entries.put key value).filter (fun entry => keeps entry.1) =
      entries.filter fun entry => keeps entry.1 := by
  have replaced : (entries.map fun entry =>
      if entry.1.isSame key then (entry.1, value) else entry).filter (fun entry => keeps entry.1) =
        entries.filter fun entry => keeps entry.1 := by
    induction entries with
    | nil => rfl
    | cons entry rest ih =>
      rw [List.map_cons]
      by_cases same : entry.1.isSame key = true
      · have gone := dropped entry.1 same
        rw [if_pos same, List.filter_cons_of_neg (by rw [gone]; decide),
          List.filter_cons_of_neg (by rw [gone]; decide), ih]
      · rw [if_neg same, List.filter_cons, List.filter_cons, ih]
  unfold Entries.put
  split
  · exact replaced
  · have gone := dropped key (Value.isSame_self key)
    rw [List.filter_append, List.filter_cons_of_neg (by rw [gone]; decide), List.filter_nil,
      List.append_nil]

/-! ## Textual keys -/

theorem find?_replace_of_ne (entries : Entries α) {key : Value} {name : String}
    (other : key ≠ .str name) (value : α) :
    Entries.find? (entries.map fun entry =>
      if entry.1.isSame key then (entry.1, value) else entry) (.str name) =
        entries.find? (.str name) := by
  induction entries with
  | nil => rfl
  | cons entry rest ih =>
    by_cases same : entry.1.isSame (.str name) = true
    · have apart : entry.1.isSame key = false := by
        rw [Value.isSame_str_iff.mp same]
        exact Bool.eq_false_iff.mpr fun held => other (Value.str_isSame_iff.mp held)
      simp [Entries.find?, same, apart]
    · by_cases replaced : entry.1.isSame key = true
      · simpa [Entries.find?, same, replaced] using ih
      · simpa [Entries.find?, same, replaced] using ih

theorem find?_put (entries : Entries α) (pair : Value × α) (name : String) :
    (entries.put pair.1 pair.2).find? (.str name) =
      (Entries.find? [pair] (.str name)).or (entries.find? (.str name)) := by
  by_cases same : pair.1 = .str name
  · have found : Entries.find? [pair] (.str name) = some pair.2 := by
      simp [Entries.find?, same, Value.isSame_self]
    rw [same, find?_put_self, found, Option.some_or]
  · have apart : pair.1.isSame (.str name) = false :=
      Bool.eq_false_iff.mpr fun held => same (Value.isSame_str_iff.mp held)
    have nothing : Entries.find? [pair] (.str name) = none := by
      simp [Entries.find?, apart]
    rw [nothing, Option.none_or]
    by_cases held : entries.hasKey pair.1 = true
    · rw [Entries.put, if_pos held, find?_replace_of_ne entries same]
    · have missing := Bool.eq_false_iff.mpr held
      rw [put_of_hasKey_eq_false missing, find?_append, nothing, Option.or_none]

/-- Of several pairs with one textual key the last one counts. -/
theorem find?_ofPairs (pairs : List (Value × α)) (name : String) :
    (Entries.ofPairs pairs).find? (.str name) = Entries.find? pairs.reverse (.str name) := by
  have behind (entries : Entries α) :
      Entries.find? (pairs.foldl (fun entries pair => entries.put pair.1 pair.2) entries)
        (.str name) = (Entries.find? pairs.reverse (.str name)).or (entries.find? (.str name)) := by
    induction pairs generalizing entries with
    | nil => exact Option.none_or.symm
    | cons pair pairs ih =>
      rw [List.foldl_cons, ih, find?_put, List.reverse_cons, find?_append, Option.or_assoc]
  exact (behind []).trans Option.or_none

/-! ## Distinct keys -/

/-- No key comes twice. -/
def HasDistinctKeys (entries : Entries α) : Prop :=
  List.Pairwise (fun entry later => entry.1.isSame later.1 = false) entries

theorem hasDistinctKeys_put {entries : Entries α} (distinct : entries.HasDistinctKeys)
    (key : Value) (value : α) : (entries.put key value).HasDistinctKeys := by
  by_cases held : entries.hasKey key = true
  · rw [Entries.put, if_pos held, HasDistinctKeys, List.pairwise_map]
    apply distinct.imp
    intro entry later apart
    by_cases first : entry.1.isSame key = true <;> by_cases second : later.1.isSame key = true <;>
      simp [first, second, apart]
  · have missing := eq_false_of_ne_true held
    rw [put_of_hasKey_eq_false missing, HasDistinctKeys, List.pairwise_append]
    refine ⟨distinct, List.pairwise_singleton _ _, ?_⟩
    intro entry member later last
    rw [List.mem_singleton.mp last]
    exact eq_false_of_ne_true (List.any_eq_false.mp missing entry member)

/-! ## Texts as the only keys -/

/-- Every key is a text, and none comes twice. -/
structure HasTextKeys (entries : Entries α) : Prop where
  distinct : entries.HasDistinctKeys
  textual : ∀ entry ∈ entries, ∃ name, entry.1 = .str name

namespace HasTextKeys

variable {entries : Entries α}

theorem nil : HasTextKeys ([] : Entries α) := ⟨List.Pairwise.nil, List.forall_mem_nil _⟩

theorem put (keyed : entries.HasTextKeys) (name : String) (value : α) :
    HasTextKeys (entries.put (.str name) value) where
  distinct := hasDistinctKeys_put keyed.distinct (.str name) value
  textual := by
    intro entry member
    rcases fst_mem_put member with new | ⟨earlier, held, same⟩
    · exact ⟨name, new⟩
    · rw [← same]
      exact keyed.textual earlier held

/-- The keys as texts are distinct too. -/
theorem nodup_text (keyed : entries.HasTextKeys) :
    (entries.map fun entry => entry.1.text).Nodup := by
  rw [List.Nodup, List.pairwise_map]
  refine keyed.distinct.imp_of_mem fun {entry later} member memberLater apart same => ?_
  obtain ⟨name, first⟩ := keyed.textual entry member
  obtain ⟨other, second⟩ := keyed.textual later memberLater
  rw [first, second] at apart same
  exact Bool.eq_false_iff.mp apart (Value.isSame_str_iff.mpr (congrArg Value.str same))

theorem tail {entry : Value × α} (keyed : HasTextKeys (entry :: entries)) :
    entries.HasTextKeys :=
  ⟨keyed.distinct.tail, fun later member => keyed.textual later (List.mem_cons_of_mem _ member)⟩

end HasTextKeys

end RecordQuery.Entries
