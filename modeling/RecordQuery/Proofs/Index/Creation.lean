import RecordQuery.Index
import RecordQuery.Proofs.Outcome

/-!
# New indexes

An index can be created over one field or more (`Index.create_eq_ok`), and it lists nothing yet.
-/

namespace RecordQuery.Index

/-- An index without records over fields of undotted names, with ids in the field `id`. -/
def blank (names : List String) : Index :=
  ⟨names.map .str, names.map ([·]), ["id"], [], [], 0⟩

/-- A new index holds nothing; it has a path for each of its fields and one for the id. -/
theorem create_eq_ok {fields idField : Value} {index : Index}
    (created : Index.create fields idField = .ok index) :
    ∃ paths idPath, fields.keyItems.mapM Path.ofField = .ok paths ∧
      Path.ofField idField = .ok idPath ∧
      index = ⟨fields.keyItems, paths, idPath, [], [], 0⟩ := by
  unfold Index.create at created
  dsimp only at created
  split at created
  · obtain ⟨_, failed, _⟩ := bind_eq_ok.mp created
    cases failed
  · obtain ⟨paths, located, created⟩ := bind_eq_ok.mp created
    obtain ⟨idPath, idLocated, created⟩ := bind_eq_ok.mp created
    cases created
    exact ⟨paths, idPath, located, idLocated, rfl⟩

/-- A new index is over the fields given, finds ids where the id field says, and lists nothing. -/
theorem create_spec {fields idField : Value} {index : Index}
    (created : Index.create fields idField = .ok index) :
    index.fields = fields.keyItems ∧ Path.ofField idField = .ok index.idPath ∧
      index.toList = [] := by
  obtain ⟨paths, idPath, -, idLocated, rfl⟩ := create_eq_ok created
  exact ⟨rfl, idLocated, rfl⟩

end RecordQuery.Index
