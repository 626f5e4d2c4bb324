import Mathlib
import RecordQuery.Collection
import RecordQuery.Proofs.Outcome

/-!
# Loads that break off

A load puts every record into all indexes before the next one comes, and it ends where the code of a
record raises (`Collection.breakOff?`). So every index takes a front of the records, the indexes
before the one that raised one record more than the others (`Collection.load_eq`). Data raises
nothing, and all indexes take all of it (`Collection.load_quiet`).
-/

namespace RecordQuery

namespace Index

variable (index : Index) (record : Value)

theorem fault?_quiet : index.fault? .quiet record = none := by
  have reading (path : Path) : RecordCode.quiet.readFault? record path = none := ite_self none
  have wording (v : Value) : RecordCode.quiet.partFault? v = none := by
    unfold RecordCode.partFault?
    split <;> rfl
  have fields : index.paths.findSome? (RecordCode.quiet.readFault? record) = none :=
    List.findSome?_eq_none_iff.mpr fun path _ => reading path
  have parts : (index.keyValues record).findSome? RecordCode.quiet.partFault? = none :=
    List.findSome?_eq_none_iff.mpr fun v _ => wording v
  rw [fault?, fields, parts, reading, wording]
  rfl

theorem fault?_insertAll (records : List Value) (code : RecordCode) :
    (index.insertAll records).fault? code record = index.fault? code record := by
  induction records generalizing index with
  | nil => rfl
  | cons first records ih => exact ih (index.insert first)

variable {index} {code : CallCode} {turn : Nat} {filled : Index}

/-- What an index took over without anything raised is all of the records. -/
theorem tryInsertAll_eq_ok {records : List Value}
    (accepted : index.tryInsertAll code turn records = .ok filled) :
    filled = index.insertAll records := by
  induction records generalizing index turn with
  | nil =>
    cases accepted
    rfl
  | cons record records ih =>
    obtain ⟨grown, inserted, later⟩ := bind_eq_ok.mp accepted
    unfold tryInsert at inserted
    split at inserted
    · cases inserted
    · cases inserted
      exact ih later

theorem tryInsertAll_quiet (index : Index) (turn : Nat) (records : List Value) :
    index.tryInsertAll .quiet turn records = .ok (index.insertAll records) := by
  induction records generalizing index turn with
  | nil => rfl
  | cons record records ih =>
    refine bind_eq_ok.mpr ⟨index.insert record, ?_, ih (index.insert record) (turn + 1)⟩
    rw [tryInsert, CallCode.quiet, fault?_quiet]

end Index

/-- The code of the insertions behind the first ones of a call. -/
def CallCode.after (code : CallCode) (turns : Nat) : CallCode := fun turn => code (turns + turn)

theorem CallCode.after_zero (code : CallCode) : code.after 0 = code := by
  funext turn
  exact congrArg code (Nat.zero_add turn)

theorem CallCode.after_after (code : CallCode) (turns more : Nat) :
    (code.after turns).after more = code.after (turns + more) := by
  funext turn
  exact congrArg code (Nat.add_assoc turns more turn).symm

namespace Collection

/-- All indexes of the collection, the primary one first. -/
def indexes (collection : Collection) : List Index :=
  collection.primary :: collection.secondary.map (·.2)

/-- The collection with more records in every index. -/
def addAll (collection : Collection) (records : List Value) : Collection :=
  { collection with
    primary := collection.primary.insertAll records
    secondary := collection.secondary.map fun (name, index) => (name, index.insertAll records) }

/-- The collection with more records, which may differ from index to index. -/
def addEach (collection : Collection) (records : Nat → List Value) : Collection :=
  { collection with
    primary := collection.primary.insertAll (records 0)
    secondary := collection.secondary.mapIdx fun position (name, index) =>
      (name, index.insertAll (records (position + 1))) }

/-- The first of some indexes in which a record raises: its position, and what is raised. -/
def refusal? (code : CallCode) (record : Value) (indexes : List Index) : Option (Nat × Error) :=
  indexes.zipIdx.findSome? fun (index, position) =>
    (index.fault? (code position) record).map fun e => (position, e)

/-- The first record of a load that raises in an index: the positions of both, the primary index at
0, and what is raised. -/
def breakOff? (collection : Collection) (code : CallCode) (records : List Value) :
    Option (Nat × Nat × Error) :=
  records.zipIdx.findSome? fun (record, before) =>
    (refusal? (code.after (before * collection.indexes.length)) record collection.indexes).map
      fun (position, e) => (before, position, e)

/-- The records of a load that the index at a position takes. -/
def takenBy (collection : Collection) (code : CallCode) (records : List Value) (position : Nat) :
    List Value :=
  match collection.breakOff? code records with
  | none => records
  | some (before, refusing, _) =>
    records.take (if position < refusing then before + 1 else before)

/-- The records of a load that the collection takes: those that come into its primary index. -/
def taken (collection : Collection) (code : CallCode) (records : List Value) : List Value :=
  collection.takenBy code records 0

/-- The record of a load that comes into some indexes only, if there is one. -/
def split (collection : Collection) (code : CallCode) (records : List Value) : List Value :=
  match collection.breakOff? code records with
  | some (before, _ + 1, _) => records[before]?.toList
  | _ => []

/-! ## Where a load breaks off -/

theorem refusal?_cons (code : CallCode) (record : Value) (index : Index) (rest : List Index) :
    refusal? code record (index :: rest) =
      match index.fault? (code 0) record with
      | some e => some (0, e)
      | none => (refusal? (code.after 1) record rest).map
          fun (position, e) => (position + 1, e) := by
  unfold refusal?
  rw [List.zipIdx_cons, List.findSome?_cons, List.zipIdx_succ, List.findSome?_map,
    List.map_findSome?]
  cases raised : index.fault? (code 0) record with
  | some e => simp [raised]
  | none => simp [raised, Function.comp_def, CallCode.after, Nat.add_comm]

theorem breakOff?_cons (collection : Collection) (code : CallCode) (record : Value)
    (rest : List Value) :
    collection.breakOff? code (record :: rest) =
      match refusal? code record collection.indexes with
      | some (position, e) => some (0, position, e)
      | none => (collection.breakOff? (code.after collection.indexes.length) rest).map
          fun (before, position, e) => (before + 1, position, e) := by
  unfold breakOff?
  rw [List.zipIdx_cons, List.findSome?_cons, List.zipIdx_succ, List.findSome?_map,
    List.map_findSome?]
  cases refused : refusal? code record collection.indexes with
  | some place => simp [CallCode.after_zero, refused]
  | none =>
    simp [CallCode.after_zero, CallCode.after_after, refused, Function.comp_def, Nat.succ_mul,
      Nat.add_comm]

/-- Records taken earlier change nothing about where the next one raises. -/
theorem refusal?_mapIdx (code : CallCode) (record : Value) (indexes : List Index)
    (records : Nat → List Value) :
    refusal? code record (indexes.mapIdx fun position index => index.insertAll (records position)) =
      refusal? code record indexes := by
  induction indexes generalizing code records with
  | nil => rfl
  | cons index rest ih =>
    rw [List.mapIdx_cons, refusal?_cons, refusal?_cons, Index.fault?_insertAll,
      ih (code.after 1) fun position => records (position + 1)]

theorem takenBy_cons (collection : Collection) (code : CallCode) (record : Value)
    (rest : List Value) :
    collection.takenBy code (record :: rest) = fun position =>
      match refusal? code record collection.indexes with
      | some (refusing, _) => if position < refusing then [record] else []
      | none =>
        record :: collection.takenBy (code.after collection.indexes.length) rest position := by
  funext position
  unfold takenBy
  rw [breakOff?_cons]
  cases refusal? code record collection.indexes with
  | some place =>
    by_cases earlier : position < place.1 <;> simp [earlier]
  | none =>
    cases collection.breakOff? (code.after collection.indexes.length) rest with
    | none => rfl
    | some place =>
      by_cases earlier : position < place.2.1 <;> simp [earlier]

/-! ## Records for each index -/

theorem indexes_addEach (collection : Collection) (records : Nat → List Value) :
    (collection.addEach records).indexes =
      collection.indexes.mapIdx fun position index => index.insertAll (records position) := by
  rw [indexes, indexes, addEach, List.mapIdx_cons]
  congr 1
  apply List.ext_getElem?
  simp [Function.comp_def]

theorem addEach_addEach (collection : Collection) (first second : Nat → List Value) :
    (collection.addEach first).addEach second =
      collection.addEach fun position => first position ++ second position := by
  simp [addEach, Index.insertAll, Function.comp_def]

theorem addEach_const (collection : Collection) (records : List Value) :
    (collection.addEach fun _ => records) = collection.addAll records := by
  have same : (collection.addEach fun _ => records).secondary =
      (collection.addAll records).secondary := by
    apply List.ext_getElem?
    simp [addEach, addAll]
  exact congrArg (Collection.mk collection.idField (collection.primary.insertAll records)) same

theorem addAll_nil (collection : Collection) : collection.addAll [] = collection := by
  simp [addAll, Index.insertAll]

theorem breakOff?_addEach (collection : Collection) (records : Nat → List Value) (code : CallCode)
    (others : List Value) :
    (collection.addEach records).breakOff? code others = collection.breakOff? code others := by
  unfold breakOff?
  simp only [indexes_addEach, refusal?_mapIdx, List.length_mapIdx]

theorem takenBy_addEach (collection : Collection) (records : Nat → List Value) (code : CallCode)
    (others : List Value) :
    (collection.addEach records).takenBy code others = collection.takenBy code others := by
  funext position
  rw [takenBy, breakOff?_addEach]
  rfl

/-! ## What a load does -/

theorem insertIntoEach_eq (code : CallCode) (turn : Nat) (record : Value)
    (entries : Entries Index) :
    insertIntoEach code turn record entries =
      let refused? := refusal? (code.after turn) record (entries.map (·.2))
      (entries.mapIdx fun position (name, index) =>
          (name, index.insertAll (if refused?.all (position < ·.1) then [record] else [])),
        refused?.map (·.2)) := by
  induction entries generalizing turn with
  | nil => rfl
  | cons entry rest ih =>
    obtain ⟨name, index⟩ := entry
    rw [List.map_cons, refusal?_cons]
    unfold insertIntoEach Index.tryInsert
    cases raised : index.fault? (code turn) record with
    | some e =>
      have first : index.fault? (code.after turn 0) record = some e := raised
      have kept : rest.mapIdx (fun _ entry => entry) = rest := by
        apply List.ext_getElem?
        simp
      simp [first, Index.insertAll, kept]
    | none =>
      have first : index.fault? (code.after turn 0) record = none := raised
      simp [first, ih, CallCode.after_after, Index.insertAll, Option.all_map, Function.comp_def]

theorem take_eq (code : CallCode) (turn : Nat) (collection : Collection) (record : Value) :
    collection.take code turn record =
      let refused? := refusal? (code.after turn) record collection.indexes
      (collection.addEach fun position =>
        if refused?.all (position < ·.1) then [record] else [], refused?.map (·.2)) := by
  rw [indexes, refusal?_cons]
  unfold take Index.tryInsert
  cases raised : collection.primary.fault? (code turn) record with
  | some e =>
    have first : collection.primary.fault? (code.after turn 0) record = some e := raised
    simp [first, addEach_const, addAll_nil]
  | none =>
    have first : collection.primary.fault? (code.after turn 0) record = none := raised
    simp [first, insertIntoEach_eq, addEach, CallCode.after_after, Index.insertAll, Option.all_map,
      Function.comp_def]

/-- Records are taken up to the place where the code of one raises. -/
theorem takeAll_eq (code : CallCode) (turn : Nat) (collection : Collection)
    (records : List Value) :
    collection.takeAll code turn records =
      (collection.addEach (collection.takenBy (code.after turn) records),
        (collection.breakOff? (code.after turn) records).map (·.2.2)) := by
  induction records generalizing turn collection with
  | nil =>
    have unchanged := (addEach_const collection []).trans (addAll_nil collection)
    exact congrArg (·, none) unchanged.symm
  | cons record rest ih =>
    unfold takeAll
    rw [take_eq, takenBy_cons, breakOff?_cons]
    cases refused : refusal? (code.after turn) record collection.indexes with
    | some place => simp
    | none =>
      -- The next record finds every index with one record more, which raises nothing new.
      have turns : code.after (turn + 1 + collection.secondary.length) =
          (code.after turn).after collection.indexes.length := by
        rw [CallCode.after_after, indexes, List.length_cons, List.length_map, Nat.add_assoc,
          Nat.add_comm 1]
      simp [ih, turns, addEach_addEach, takenBy_addEach, breakOff?_addEach, Function.comp_def]

/-- **How far a load comes.** Every index takes the records before the one that raises, and this one
too if the index comes before the one that it raises in. What is raised there comes first, then what
the records themselves end with. -/
theorem load_eq (code : CallCode) (collection : Collection) (supply : Supply) :
    collection.load code supply =
      (collection.addEach (collection.takenBy code supply.records),
        ((collection.breakOff? code supply.records).map (·.2.2)).or supply.failure?) := by
  unfold load
  rw [takeAll_eq, CallCode.after_zero]
  cases collection.breakOff? code supply.records <;> rfl

/-- What an index misses of the records that a load brings into the primary one came into some
indexes only. -/
theorem takenBy_append_missed (collection : Collection) (code : CallCode) (records : List Value)
    (position : Nat) :
    ∃ missed, missed.Sublist (collection.split code records) ∧
      collection.takenBy code records position ++ missed = collection.taken code records := by
  unfold taken takenBy split
  cases collection.breakOff? code records with
  | none => exact ⟨[], List.nil_sublist _, List.append_nil records⟩
  | some place =>
    obtain ⟨before, refusing, e⟩ := place
    cases refusing with
    | zero => exact ⟨[], List.nil_sublist _, by simp⟩
    | succ refusing =>
      by_cases earlier : position < refusing + 1
      · exact ⟨[], List.nil_sublist _, by simp [earlier]⟩
      · exact ⟨records[before]?.toList, List.Sublist.refl _, by simp [earlier, List.take_add_one]⟩

/-! ## Data -/

theorem breakOff?_quiet (collection : Collection) (records : List Value) :
    collection.breakOff? .quiet records = none := by
  have refused (record : Value) : refusal? .quiet record collection.indexes = none := by
    refine List.findSome?_eq_none_iff.mpr fun entry _ => ?_
    exact Option.map_eq_none_iff.mpr (entry.1.fault?_quiet record)
  refine List.findSome?_eq_none_iff.mpr fun entry _ => ?_
  exact Option.map_eq_none_iff.mpr (refused entry.1)

/-- Of data, every index takes everything that comes. -/
theorem load_quiet (collection : Collection) (supply : Supply) :
    collection.load .quiet supply = (collection.addAll supply.records, supply.failure?) := by
  have all : collection.takenBy .quiet supply.records = fun _ => supply.records := by
    funext position
    rw [takenBy, breakOff?_quiet]
  rw [load_eq, all, addEach_const, breakOff?_quiet]
  rfl

end Collection

end RecordQuery
