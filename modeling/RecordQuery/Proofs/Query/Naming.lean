import Mathlib
import RecordQuery.Proofs.Entries
import RecordQuery.Proofs.Query.Failure

/-!
# Retrievals by an index that is not there

Options may name an index in a mapping and by a named value. A retrieval whose options name an index
that the collection lacks is refused and leaves the query as it was (`perform_of_missing`), unless
it is a `get` for a key without components, which looks at no options (`perform_of_isBlankGet`).
-/

namespace RecordQuery

/-! ## The index that options name -/

/-- The options can be read, and they name an index, by a named value or else in the mapping; of
several options by that name the last one counts. -/
structure Options.Choose (options : Value) (named : Entries Value) (name : String) : Prop where
  readable : ∃ entries, entriesOf options = .ok entries ∧
    Entries.find? (entries ++ named).reverse (.str "index") = some (.str name)
  unreserved : reserved? named = none

namespace Options

/-- No other option has a second spelling that means the index. -/
theorem isSame_canonicalName (name : Value) :
    (canonicalName name).isSame (.str "index") = name.isSame (.str "index") := by
  unfold canonicalName
  split <;> rfl

theorem find?_map_canonicalName (pairs : Entries Value) :
    Entries.find? (pairs.map fun option => (canonicalName option.1, option.2)) (.str "index") =
      Entries.find? pairs (.str "index") := by
  induction pairs with
  | nil => rfl
  | cons pair pairs ih =>
    unfold Entries.find? at ih ⊢
    rw [List.map_cons, List.find?_cons, List.find?_cons, isSame_canonicalName]
    split
    · rfl
    · exact ih

theorem find?_merge (entries named : Entries Value) :
    (merge [entries, named]).find? (.str "index") =
      Entries.find? (entries ++ named).reverse (.str "index") := by
  have flat : [entries, named].flatten = entries ++ named := by simp
  unfold merge
  rw [Entries.find?_ofPairs, ← List.map_reverse, find?_map_canonicalName, flat]

theorem isTruthy_str {name : String} (filled : name ≠ "") : (Value.str name).isTruthy = true := by
  have isEmpty : name.isEmpty = false := by
    rw [← Bool.not_eq_true, String.isEmpty_iff]
    exact filled
  rw [Value.isTruthy, isEmpty]
  rfl

/-- Options that name an index are read with that index. -/
theorem Choose.exists_ofValue {options : Value} {named : Entries Value} {name : String}
    (chosen : Choose options named name) (filled : name ≠ "") :
    ∃ read, ofValue options named = .ok read ∧ read.index = .str name := by
  obtain ⟨entries, given, found⟩ := chosen.readable
  refine ⟨ofEntries (merge [entries, named]), ?_, ?_⟩
  · rw [ofValue, chosen.unreserved, given]
    rfl
  · rw [ofEntries, find?_merge, found]
    exact if_pos (isTruthy_str filled)

end Options

theorem Collection.select_of_found {collection : Collection} {options : Options} {name : String}
    {index : Index} (found : collection.secondary.find? (.str name) = some index)
    (filled : name ≠ "") (chosen : options.index = .str name) :
    collection.select options = .ok index := by
  unfold select
  rw [chosen, Options.isTruthy_str filled, found]
  rfl

theorem Collection.select_of_missing {collection : Collection} {options : Options} {name : String}
    (missing : collection.secondary.hasKey (.str name) = false) (filled : name ≠ "")
    (chosen : options.index = .str name) :
    collection.select options = .error (.unknownIndex name) := by
  unfold select
  rw [chosen, Options.isTruthy_str filled, Entries.find?_of_hasKey_eq_false missing]
  rfl

namespace Query

/-! ## Retrievals -/

/-- The step retrieves the records of a key, of at least one key or of a range by the options. -/
inductive Step.Retrieves : Step → Value → Entries Value → Prop where
  | get (key options : Value) (named : Entries Value) :
      Retrieves (.get key options named) options named
  | getAll {arguments keys : List Value} {options : Value} {named : Entries Value}
      (split : splitOptions arguments = (keys, options)) (filled : keys ≠ []) :
      Retrieves (.getAll arguments named) options named
  | between (left right options : Value) (named : Entries Value) :
      Retrieves (.between left right options named) options named

/-- The step asks for a key without components. -/
def Step.IsBlankGet : Step → Prop
  | .get key _ _ => key.keyItems = []
  | _ => False

section

variable {collection : Collection} {query : Query} {key options : Value} {named : Entries Value}
  {name : String}

theorem checkEmpty_of_empty (blank : query.state = .empty) : query.checkEmpty = .ok () := by
  unfold checkEmpty
  rw [blank]

theorem get_of_blank (blank : query.state = .empty) (keyless : key.keyItems = []) :
    query.get collection key options named = .ok (query.retrieved collection) := by
  unfold get
  rw [checkEmpty_of_empty blank, keyless]
  rfl

variable (missing : collection.secondary.hasKey (.str name) = false) (filled : name ≠ "")
  (chosen : Options.Choose options named name)

include missing filled chosen

/-- Whatever is to be taken from the index, there is none. -/
theorem selected_of_missing (take : Options → Index → Query) : (do
    let read ← Options.ofValue options named
    let index ← collection.select read
    return take read index) = .error (.unknownIndex name) := by
  obtain ⟨read, told, index⟩ := chosen.exists_ofValue filled
  rw [told]
  change (do
    let index ← collection.select read
    return take read index) = .error (.unknownIndex name)
  rw [Collection.select_of_missing missing filled index]
  rfl

theorem get_of_missing (blank : query.state = .empty) (keyed : key.keyItems ≠ []) :
    query.get collection key options named = .error (.unknownIndex name) := by
  have refused := selected_of_missing missing filled chosen
    fun _ index => holding (index.get (.list key.keyItems))
  unfold get
  rw [checkEmpty_of_empty blank, List.isEmpty_eq_false_iff.mpr keyed]
  exact refused

theorem getAll_of_missing {arguments keys : List Value} (blank : query.state = .empty)
    (split : splitOptions arguments = (keys, options)) (keyed : keys ≠ []) :
    query.getAll collection arguments named = .error (.unknownIndex name) := by
  have refused := selected_of_missing missing filled chosen
    fun _ index => holding (keys.flatMap index.get)
  unfold getAll
  rw [checkEmpty_of_empty blank, split]
  dsimp only
  rw [List.isEmpty_eq_false_iff.mpr keyed]
  exact refused

theorem between_of_missing (left right : Value) (blank : query.state = .empty) :
    query.between collection left right options named = .error (.unknownIndex name) := by
  have refused := selected_of_missing missing filled chosen
    fun read index => holding (index.between left right read)
  unfold between
  rw [checkEmpty_of_empty blank]
  exact refused

/-- A retrieval by an index that is not there is refused. -/
theorem perform_of_missing {step : Step} (blank : query.state = .empty)
    (retrieves : step.Retrieves options named) (keyed : ¬ step.IsBlankGet) :
    query.perform collection step = ⟨query, .error (.unknownIndex name), []⟩ := by
  unfold perform
  cases retrieves with
  | get key options named =>
    dsimp only
    rw [get_of_missing missing filled chosen blank keyed]
    rfl
  | getAll split given =>
    dsimp only
    rw [getAll_of_missing missing filled chosen blank split given]
    rfl
  | between left right options named =>
    dsimp only
    rw [between_of_missing missing filled chosen left right blank]
    rfl

end

/-- A key without components retrieves all records, whatever the options. -/
theorem perform_of_isBlankGet (collection : Collection) {query : Query} {step : Step}
    (blank : query.state = .empty) (keyless : step.IsBlankGet) :
    query.perform collection step = ⟨holding collection.primary.toList, .ok .self, []⟩ := by
  cases step with
  | get key options named =>
    unfold perform
    dsimp only
    rw [get_of_blank blank keyless, retrieved, current_of_empty blank]
    rfl
  | _ => exact keyless.elim

end Query

end RecordQuery
