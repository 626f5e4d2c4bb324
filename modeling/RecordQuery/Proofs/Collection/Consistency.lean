import Mathlib
import RecordQuery.Session
import RecordQuery.Proofs.Collection.Loading
import RecordQuery.Proofs.Entries
import RecordQuery.Proofs.Index.Order

/-!
# Consistency of the indexes of a collection

`Collection.Reached collection taken split` relates a collection to the records that its primary
index took since it was created, and to those of them that came into some indexes only. Two ways
lead into a secondary index, taking over the records present and taking each record added later;
along both, an index misses nothing but records that came into some indexes only
(`Collection.Reached.holds`). Queries do not reach the collection, so every history of a session
leads to such a collection (`Session.reached_run`). A collection is `Collection.Built` if no load
broke off in a secondary index; all its indexes hold the same records (`Collection.Built.perm`).
-/

namespace RecordQuery

namespace Collection

variable {collection indexed : Collection} {taken split : List Value}

/-- The fields of a new secondary index, where null stands for the field of its own name. -/
def fieldsFor (name fields : Value) : Value :=
  match fields with
  | .null => .list [name]
  | fields => fields

theorem empty_eq_ok {idField indexFields : Value}
    (created : empty idField indexFields = .ok collection) :
    ∃ primary,
      Index.create (if indexFields.isTruthy then indexFields else .list [idField]) idField =
        .ok primary ∧ collection = ⟨idField, primary, []⟩ := by
  obtain ⟨primary, indexed, made⟩ := bind_eq_ok.mp created
  cases made
  exact ⟨primary, indexed, rfl⟩

/-- A secondary index that is created takes over the records present in the order of the primary
index and is then put under its name. -/
theorem createIndexFrom_eq_ok {code : CallCode} {name fields : Value}
    (created : collection.createIndexFrom code name fields = .ok indexed) :
    ∃ blank, Index.create (fieldsFor name fields) collection.idField = .ok blank ∧
      name.unkeyable? = none ∧
      indexed = { collection with
        secondary :=
          collection.secondary.put name (blank.insertAll collection.primary.toList) } := by
  obtain ⟨blank, made, rest⟩ := bind_eq_ok.mp created
  obtain ⟨filled, inserted, put⟩ := bind_eq_ok.mp rest
  cases Index.tryInsertAll_eq_ok inserted
  cases keyable : name.unkeyable? with
  | some kind =>
    simp only [keyable] at put
    cases put
  | none =>
    simp only [keyable] at put
    cases put
    exact ⟨blank, made, rfl, rfl⟩

theorem createIndex_eq_ok {name fields : Value} :
    collection.createIndex name fields = .ok indexed ↔
      ∃ blank, Index.create (fieldsFor name fields) collection.idField = .ok blank ∧
        name.unkeyable? = none ∧
        indexed = { collection with
          secondary :=
            collection.secondary.put name (blank.insertAll collection.primary.toList) } := by
  constructor
  · exact createIndexFrom_eq_ok
  · rintro ⟨blank, made, keyable, rfl⟩
    refine bind_eq_ok.mpr ⟨blank, made, bind_eq_ok.mpr ⟨_, blank.tryInsertAll_quiet 0 _, ?_⟩⟩
    simp only [keyable]
    rfl

/-- The collection was created without records and then took records and secondary indexes, by calls
of which some may have raised. Listed are the records that its primary index took, in the order of
their addition, and those of them that came into some indexes only. -/
inductive Reached : Collection → List Value → List Value → Prop
  | empty {idField indexFields : Value} {collection : Collection} :
    Collection.empty idField indexFields = .ok collection → Reached collection [] []
  | load {collection : Collection} {taken split : List Value} (code : CallCode) (supply : Supply) :
    Reached collection taken split →
      Reached (collection.load code supply).1 (taken ++ collection.taken code supply.records)
        (split ++ collection.split code supply.records)
  | createIndex {collection indexed : Collection} {taken split : List Value} {code : CallCode}
    {name fields : Value} :
    Reached collection taken split → collection.createIndexFrom code name fields = .ok indexed →
      Reached indexed taken split

/-- The index took all the records taken but some of those split, in some order, and finds ids where
the collection does. -/
structure Holds (collection : Collection) (taken split : List Value) (index : Index) : Prop where
  idPath : Path.ofField collection.idField = .ok index.idPath
  built : ∃ inserted missed, Index.Built index inserted ∧ missed.Sublist split ∧
    (inserted ++ missed).Perm taken

theorem Holds.perm_missed {index : Index} (holds : collection.Holds taken split index) :
    ∃ missed, missed.Sublist split ∧ (index.toList ++ missed).Perm taken := by
  obtain ⟨inserted, missed, built, few, perm⟩ := holds.built
  exact ⟨missed, few, (built.perm.append_right missed).trans perm⟩

/-- Where nothing is split, nothing is missed. -/
theorem Holds.perm {index : Index} (holds : collection.Holds taken [] index) :
    index.toList.Perm taken := by
  obtain ⟨missed, few, perm⟩ := holds.perm_missed
  rwa [List.sublist_nil.mp few, List.append_nil] at perm

theorem holds_of_create {fields : Value} {index : Index}
    (created : Index.create fields collection.idField = .ok index) :
    collection.Holds [] [] index := by
  obtain ⟨-, located, -⟩ := Index.create_spec created
  exact ⟨located, [], [], .create created, .slnil, .nil⟩

/-- Of further records, too, an index may miss some that are split. -/
theorem Holds.insertAll {index : Index} (holds : collection.Holds taken split index)
    (records : List Value) {missed more : List Value} (few : missed.Sublist more) :
    collection.Holds (taken ++ (records ++ missed)) (split ++ more) (index.insertAll records) := by
  obtain ⟨inserted, earlier, built, fewEarlier, perm⟩ := holds.built
  obtain ⟨-, -, idPath⟩ := index.insertAll_frame records
  refine ⟨?_, inserted ++ records, earlier ++ missed, built.insertAll records,
    fewEarlier.append few, ?_⟩
  · rw [idPath]
    exact holds.idPath
  · have swapped : (inserted ++ records ++ (earlier ++ missed)).Perm
        (inserted ++ earlier ++ (records ++ missed)) := by
      rw [List.append_assoc, List.append_assoc]
      exact (List.perm_append_comm_assoc records earlier missed).append_left inserted
    exact swapped.trans (perm.append_right (records ++ missed))

/-- The primary index misses nothing of what it took. -/
theorem Reached.primary (reached : Reached collection taken split) :
    collection.Holds taken [] collection.primary := by
  induction reached with
  | empty created =>
    obtain ⟨primary, indexed, rfl⟩ := empty_eq_ok created
    exact holds_of_create indexed
  | @load collection taken split code supply _ ih =>
    have further := ih.insertAll (collection.taken code supply.records) (List.nil_sublist [])
    rw [List.append_nil] at further
    rw [load_eq]
    exact ⟨further.idPath, further.built⟩
  | createIndex _ created ih =>
    obtain ⟨blank, -, -, rfl⟩ := createIndexFrom_eq_ok created
    exact ⟨ih.idPath, ih.built⟩

/-- Every index of a collection took the records taken, but some of those split. -/
theorem Reached.holds (reached : Reached collection taken split) :
    ∀ index ∈ collection.indexes, collection.Holds taken split index := by
  induction reached with
  | empty created =>
    obtain ⟨primary, indexed, rfl⟩ := empty_eq_ok created
    intro index member
    cases List.mem_singleton.mp member
    exact holds_of_create indexed
  | @load collection taken split code supply _ ih =>
    intro index member
    rw [load_eq, indexes_addEach] at member
    obtain ⟨position, inside, rfl⟩ := List.mem_mapIdx.mp member
    obtain ⟨missed, few, parts⟩ := collection.takenBy_append_missed code supply.records position
    have further := (ih _ (List.getElem_mem inside)).insertAll
      (collection.takenBy code supply.records position) few
    rw [parts] at further
    rw [load_eq]
    exact ⟨further.idPath, further.built⟩
  | @createIndex collection indexed taken split code name fields reached created ih =>
    obtain ⟨blank, made, -, rfl⟩ := createIndexFrom_eq_ok created
    -- The new index takes the records of the primary one, which are those taken.
    have filled : collection.Holds taken split (blank.insertAll collection.primary.toList) := by
      obtain ⟨idPath, inserted, missed, built, few, perm⟩ :=
        (holds_of_create made).insertAll collection.primary.toList (List.nil_sublist [])
      rw [List.append_nil] at perm
      exact ⟨idPath, inserted, missed, built, few.trans (List.nil_sublist split),
        perm.trans reached.primary.perm⟩
    intro index member
    have kept : collection.Holds taken split index := by
      rcases List.mem_cons.mp member with rfl | later
      · exact ih collection.primary List.mem_cons_self
      · obtain ⟨entry, held, rfl⟩ := List.mem_map.mp later
        rcases Entries.mem_put held with new | earlier
        · rw [new]
          exact filled
        · exact ih entry.2 (List.mem_cons_of_mem _ (List.mem_map_of_mem earlier))
    exact ⟨kept.idPath, kept.built⟩

/-- The record on which a load breaks off in a secondary index is taken, and split. -/
theorem Reached.load_broken (reached : Reached collection taken split) (code : CallCode)
    (supply : Supply) {before refusing : Nat} {e : Error}
    (broken : collection.breakOff? code supply.records = some (before, refusing + 1, e)) :
    Reached (collection.load code supply).1 (taken ++ supply.records.take (before + 1))
      (split ++ supply.records[before]?.toList) := by
  have further := Reached.load code supply reached
  rwa [Collection.split, Collection.taken, takenBy, broken] at further

/-! ## Collections of which no load broke off -/

/-- The collection was created without records and then took the records listed and secondary
indexes; no load broke off in a secondary index. -/
def Built (collection : Collection) (added : List Value) : Prop :=
  collection.Reached added []

namespace Built

variable {added : List Value}

theorem empty {idField indexFields : Value} (created : empty idField indexFields = .ok collection) :
    collection.Built [] :=
  Reached.empty created

theorem load (built : collection.Built added) (code : CallCode) (supply : Supply)
    (whole : collection.breakOff? code supply.records = none) :
    (collection.load code supply).1.Built (added ++ supply.records) := by
  have further := Reached.load code supply built
  rwa [Collection.split, taken, takenBy, whole] at further

theorem addAll (built : collection.Built added) (records : List Value) :
    (collection.addAll records).Built (added ++ records) := by
  have further := built.load .quiet ⟨records, none⟩ (breakOff?_quiet collection records)
  rwa [load_quiet] at further

theorem createIndex {name fields : Value} (built : collection.Built added)
    (created : collection.createIndex name fields = .ok indexed) : indexed.Built added :=
  Reached.createIndex built created

/-- Every index took the records listed. -/
theorem index_built (built : collection.Built added) {index : Index}
    (member : index ∈ collection.indexes) :
    ∃ inserted, Index.Built index inserted ∧ inserted.Perm added := by
  obtain ⟨inserted, missed, indexed, few, perm⟩ := (built.holds index member).built
  rw [List.sublist_nil.mp few, List.append_nil] at perm
  exact ⟨inserted, indexed, perm⟩

theorem perm (built : collection.Built added) {index : Index}
    (member : index ∈ collection.indexes) :
    index.toList.Perm collection.primary.toList :=
  (built.holds index member).perm.trans built.primary.perm.symm

end Built

/-- A collection is only there if nothing raised at its creation. -/
theorem built_createFrom {code : CallCode} {supply? : Option Supply} {idField indexFields : Value}
    (created : createFrom code supply? idField indexFields = .ok collection) :
    collection.Built (supply?.elim [] Supply.records) := by
  obtain ⟨start, made, filled⟩ := bind_eq_ok.mp created
  cases supply? with
  | none =>
    cases filled
    exact .empty made
  | some supply =>
    cases whole : start.breakOff? code supply.records with
    | some place =>
      simp only [load_eq, whole] at filled
      cases filled
    | none =>
      have loaded := (Built.empty made).load code supply whole
      rw [load_eq] at loaded
      simp only [load_eq, whole, Option.map_none, Option.none_or] at filled
      cases failure : supply.failure? with
      | some e =>
        rw [failure] at filled
        cases filled
      | none =>
        rw [failure] at filled
        cases filled
        exact loaded

end Collection

namespace Session

/-- The records that a step brings into the primary index. -/
def Step.taken (session : Session) : Step → List Value
  | .onCollection (.addFrom code supply) => session.collection.taken code supply.records
  | _ => []

/-- The records that a step brings into some indexes only. -/
def Step.split (session : Session) : Step → List Value
  | .onCollection (.addFrom code supply) => session.collection.split code supply.records
  | _ => []

/-- The records that the steps of a history bring into the primary index. -/
def taken (session : Session) : List Step → List Value
  | [] => []
  | step :: rest => step.taken session ++ (session.perform step).1.taken rest

/-- The records that the steps of a history bring into some indexes only. -/
def split (session : Session) : List Step → List Value
  | [] => []
  | step :: rest => step.split session ++ (session.perform step).1.split rest

variable {session : Session} {taken split : List Value}

theorem perform_onCollection (session : Session) (step : Collection.Step) :
    session.perform (.onCollection step) =
      ({ session with collection := (session.collection.perform step).1 },
        .ofCollection (session.collection.perform step).2) := rfl

theorem reached_perform (reached : session.collection.Reached taken split) (step : Step) :
    (session.perform step).1.collection.Reached (taken ++ step.taken session)
      (split ++ step.split session) := by
  cases step with
  | onQuery number step => simpa [perform, performOnQuery, setQuery, Step.taken, Step.split]
  | onCollection step =>
    cases step with
    | addFrom code supply => exact .load code supply reached
    | createIndexFrom code name fields =>
      rw [perform_onCollection, Collection.perform]
      cases created : session.collection.createIndexFrom code name fields with
      | ok indexed => simpa [Step.taken, Step.split] using reached.createIndex created
      | error e => simpa [Step.taken, Step.split] using reached

/-- Every history of a session leads to a collection reached by its loads. -/
theorem reached_run (reached : session.collection.Reached taken split) (history : List Step) :
    (session.run history).1.collection.Reached (taken ++ session.taken history)
      (split ++ session.split history) := by
  induction history generalizing session taken split with
  | nil => simpa [run, Session.taken, Session.split] using reached
  | cons step history ih =>
    have further := ih (reached_perform reached step)
    simpa [run, Session.taken, Session.split, List.append_assoc] using further

/-- **How far the indexes of a collection agree.** After any history of a session over a new
collection, raising steps and replaced indexes included, the primary index holds just the records
that came into it, as often as they came. Every other index may miss some of the records on which a
load broke off in a secondary index, and nothing else; so if no load did, all indexes hold the same
records. Every index finds ids where the collection does. Without not-a-number among the keys it
holds its records in the order of its keys, and without not-a-number among the ids, those of one key
in the order of their ids. From there on a load brings into every index the records before the one
that raises, and this one into the indexes before the one that it raises in. The creation of an
index that raises leaves everything as it was. -/
theorem indexes_agree {code : CallCode} {supply? : Option Supply} {idField indexFields : Value}
    {collection : Collection}
    (created : Collection.createFrom code supply? idField indexFields = .ok collection)
    (history : List Step) :
    let first := start collection
    let last := (first.run history).1
    let taken := supply?.elim [] Supply.records ++ first.taken history
    let split := first.split history
    last.collection.size = taken.length ∧
      last.collection.primary.toList.Perm taken ∧
      (∀ index ∈ last.collection.indexes,
        (∃ missed, missed.Sublist split ∧
          (index.toList ++ missed).Perm last.collection.primary.toList) ∧
        (split = [] → index.toList.Perm last.collection.primary.toList) ∧
        Path.ofField last.collection.idField = .ok index.idPath ∧
        ((∀ record ∈ taken, index.HasProperKey record) →
          (index.toList.Pairwise fun a b =>
            (Key.compare (index.keyOf a) (index.keyOf b)).isLE) ∧
          ((∀ record ∈ taken, index.HasProperId record) →
            index.toList.Pairwise fun a b => (index.compareRecords a b).isLE))) ∧
      (∀ (code : CallCode) (supply : Supply),
        last.perform (.onCollection (.addFrom code supply)) =
          ({ last with
              collection := last.collection.addEach (last.collection.takenBy code supply.records) },
            .ofCollection (((last.collection.breakOff? code supply.records).map (·.2.2)).or
              supply.failure?))) ∧
      ∀ (code : CallCode) (name fields : Value) (e : Error),
        (last.perform (.onCollection (.createIndexFrom code name fields))).2 =
            .ofCollection (some e) →
          (last.perform (.onCollection (.createIndexFrom code name fields))).1 = last := by
  intro first last taken split
  have reached : last.collection.Reached taken split :=
    reached_run (Collection.built_createFrom created) history
  have primary := reached.primary.perm
  refine ⟨primary.length_eq, primary, ?_, ?_, ?_⟩
  · intro index member
    have holds := reached.holds index member
    obtain ⟨missed, few, perm⟩ := holds.perm_missed
    refine ⟨⟨missed, few, perm.trans primary.symm⟩, ?_, holds.idPath, ?_⟩
    · intro whole
      rw [whole] at holds
      exact holds.perm.trans primary.symm
    · intro properKeys
      obtain ⟨inserted, missed, built, -, perm⟩ := holds.built
      have listed : ∀ record ∈ inserted, record ∈ taken := fun record member =>
        perm.mem_iff.mp (List.mem_append_left missed member)
      have keys : ∀ record ∈ inserted, index.HasProperKey record := fun record member =>
        properKeys record (listed record member)
      refine ⟨built.keys_ordered keys, fun properIds => built.ordered keys ?_⟩
      intro record member
      exact properIds record (listed record member)
  · intro code supply
    rw [perform_onCollection, Collection.perform, Collection.load_eq]
  · intro code name fields e failed
    rw [perform_onCollection, Collection.perform] at failed ⊢
    cases created : last.collection.createIndexFrom code name fields with
    | ok indexed =>
      rw [created] at failed
      cases failed
    | error other => rfl

/-- An index is created between two loads and then replaced by one of another key; a name that
cannot be a key fails in between. Of a load one record raises in the new index, and another load
ends with what its records end with. -/
theorem indexes_agree_of_replaced :
    let one := Value.map [(.str "id", .int 1), (.str "a", .str "x"), (.str "b", .int 2)]
    let two := Value.map [(.str "id", .int 2), (.str "a", .int 7), (.str "b", .bool true)]
    let three := Value.map [(.str "id", .int 2), (.str "b", .float (.finite false 1 0))]
    let four := Value.map [(.str "id", .int 4)]
    let code : CallCode := fun turn =>
      ⟨fun _ path => if turn = 3 ∧ path = ["b"] then some (.callback "b") else none, fun _ => none⟩
    let byId : Index := .blank ["id"]
    let collection : Collection := ⟨.str "id", byId.insert two, []⟩
    let history : List Step := [
      .onCollection (.createIndex (.str "a") .null), .onQuery 0 .getData,
      .onCollection (.add (.tuple [one])), .onCollection (.createIndex (.list []) .null),
      .onCollection (.createIndex (.str "a") (.list [.str "b", .str "a"])),
      .onCollection (.addFrom code ⟨[three, four, one], none⟩),
      .onCollection (.addFrom .quiet ⟨[one], some (.callback "end")⟩)]
    let last := ((start collection).run history).1
    Collection.createFrom .quiet (some ⟨[two], none⟩) (.str "id") .null = .ok collection ∧
      last.collection.indexes.map Index.toList =
        [[one, one, two, three, four], [three, two, one, one]] ∧
      (start collection).taken history = [one, three, four, one] ∧
      (start collection).split history = [four] ∧ last.collection.size = 5 := by
  intro one two three four code byId collection history last
  have created : Collection.createFrom .quiet (some ⟨[two], none⟩) (.str "id") .null =
      .ok collection := rfl
  have taken : (start collection).taken history = [one, three, four, one] := by cbv
  have size := (indexes_agree created history).1
  rw [taken] at size
  exact ⟨created, by cbv, taken, by cbv, size⟩

/-- A record of which one field raises comes into the primary index and not into the index over this
field. Not-a-number as an id keeps apart two records of one key whose ids are in the wrong order. -/
theorem indexes_disagree :
    let record := fun id : Value => Value.map [(.str "id", id), (.str "a", .int 7)]
    let one := record (.int 1)
    let two := record (.int 2)
    let other := record (.float (.nan 0))
    let code : CallCode := fun _ =>
      ⟨fun _ path => if path = ["b"] then some (.callback "b") else none, fun _ => none⟩
    let byId : Index := .blank ["id"]
    let byA : Index := .blank ["a"]
    let byB : Index := .blank ["b"]
    let create := Step.onCollection (.createIndex (.str "b") .null)
    let broken := (start ⟨.str "id", byId, []⟩).run
      [create, .onCollection (.addFrom code ⟨[one, two], none⟩)]
    let unordered := (start ⟨.str "id", byA, []⟩).run
      [create, .onCollection (.add (.list [two, other, one]))]
    Collection.create .null (.str "id") .null = .ok ⟨.str "id", byId, []⟩ ∧
      (∀ index ∈ [byId, byB], ∀ record ∈ [one, two], index.HasProperKey record) ∧
      broken.1.collection.indexes.map Index.toList = [[one], []] ∧
      broken.2 = [.ofCollection none, .ofCollection (some (.callback "b"))] ∧
      Collection.create .null (.str "id") (.list [.str "a"]) = .ok ⟨.str "id", byA, []⟩ ∧
      (∀ index ∈ [byA, byB], (∀ record ∈ [one, two, other], index.HasProperKey record) ∧
        index.compareRecords two one = .gt) ∧
      unordered.1.collection.indexes.map Index.toList =
        [[two, other, one], [two, other, one]] := by
  intro record one two other code byId byA byB create broken unordered
  exact ⟨rfl, by decide, by cbv, by cbv, rfl, by decide, by cbv⟩

end Session

end RecordQuery
