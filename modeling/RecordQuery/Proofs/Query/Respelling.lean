import Mathlib
import RecordQuery.Proofs.Clause.Decision
import RecordQuery.Proofs.Clause.Name
import RecordQuery.Proofs.Operator.Names
import RecordQuery.Proofs.Query.Stages

/-!
# Filters with other names for their operators

Two filters that differ only in the suffixes behind their patterns, where each suffix of the one
replaces that of the other, read into clauses that agree one by one (`Clause.agree_ofEntries`). So
they keep the same records (`Filter.apply_of_respells`). With the names themselves and what the
operators answer this is `Operator.named_by_letters`.
-/

namespace RecordQuery

namespace Clause

open Operator (Renames)

/-! ## Clauses -/

/-- A written name in place of another one, both with or both without a bar. -/
inductive RespellsName : String → String → Prop where
  | plain {name other : String} (renames : Renames name other) : RespellsName name other
  | barred {name other : String} (renames : Renames name other) :
      RespellsName ("|" ++ name) ("|" ++ other)

/-- What is asked of one field, under other names for the operators. -/
inductive RespellsAsked : Value → Value → Prop where
  | same (asked : Value) : RespellsAsked asked asked
  | operators {entries others : Entries Value}
      (each : List.Forall₂ (fun entry other =>
        RespellsName entry.1.text other.1.text ∧ entry.2 = other.2) entries others) :
      RespellsAsked (.map entries) (.map others)

/-- What is asked of the same fields in the same order, under other names for the operators. -/
def RespellsFields (asked others : Entries Value) : Prop :=
  List.Forall₂ (fun entry other => entry.1 = other.1 ∧ RespellsAsked entry.2 other.2) asked others

variable {written written' : String} {asked others : Entries Value}

theorem RespellsFields.refl (asked : Entries Value) : RespellsFields asked asked :=
  List.forall₂_same.mpr fun entry _ => ⟨rfl, .same entry.2⟩

/-- Under either name a clause says the same. -/
theorem agree_ofParts (respells : RespellsName written written') (record value : Value)
    (field : String) :
    AgreeOn record (ofParts field written value) (ofParts field written' value) := by
  have told {name other : String} (renames : Renames name other) (isOr : Bool) :
      AgreeOn record ⟨field, .ofString field, name, Operator.ofName? name, value, isOr⟩
        ⟨field, .ofString field, other, Operator.ofName? other, value, isOr⟩ := by
    rw [renames.ofName?_eq]
    exact ⟨rfl, rfl⟩
  unfold ofParts
  cases respells with
  | plain renames =>
    cases renames with
    | same => exact ⟨rfl, rfl⟩
    | suffix flagged replaces =>
      rw [splitName_pattern flagged, splitName_pattern flagged]
      exact told (.suffix flagged replaces) false
  | barred renames =>
    rw [splitName_bar, splitName_bar]
    exact told renames true

theorem operatorEntries_of_respells {v w : Value} (respells : RespellsAsked v w) :
    List.Forall₂ (fun entry other => RespellsName entry.1.text other.1.text ∧ entry.2 = other.2)
      (operatorEntries v) (operatorEntries w) := by
  cases respells with
  | same => exact List.forall₂_same.mpr fun entry _ => ⟨.plain (.same _), rfl⟩
  | operators each => exact each

theorem agree_ofEntries (respells : RespellsFields asked others) (record : Value) :
    List.Forall₂ (AgreeOn record) (ofEntries asked) (ofEntries others) := by
  induction respells with
  | nil => exact .nil
  | @cons entry other rest later first _ ih =>
    obtain ⟨field, asked⟩ := entry
    obtain ⟨field', asked'⟩ := other
    obtain ⟨rfl, asks⟩ := first
    refine List.rel_append (List.rel_map ?_ (operatorEntries_of_respells asks)) ih
    rintro ⟨name, value⟩ ⟨name', value'⟩ ⟨respells, rfl⟩
    exact agree_ofParts respells record value field.text

end Clause

namespace Filter

open Clause (RespellsFields)

/-! ## Filters -/

/-- An entry of a filter, under other names for the operators if it holds the clauses. -/
inductive RespellsEntry : Value × Value → Value × Value → Prop where
  | same (entry : Value × Value) : RespellsEntry entry entry
  | clauses {asked others : Entries Value} (fields : RespellsFields asked others) :
      RespellsEntry (.str "where", .map asked) (.str "where", .map others)

/-- Two filters that differ at most in the names of the operators of their clauses. -/
def Respells (filter other : Entries Value) : Prop := List.Forall₂ RespellsEntry filter other

variable {filter other asked others : Entries Value}

theorem given_of_respells (respells : Respells filter other) {name : String}
    (apart : "where" ≠ name) : given filter name = given other name := by
  have found : filter.find? (.str name) = other.find? (.str name) := by
    induction respells with
    | nil => rfl
    | @cons entry _ rest later first _ ih =>
      have passed : (Value.str "where").isSame (.str name) = false := beq_false_of_ne apart
      unfold Entries.find? at ih ⊢
      rw [List.find?_cons, List.find?_cons]
      cases first with
      | same =>
        cases entry.1.isSame (.str name) with
        | true => rfl
        | false => exact ih
      | clauses fields =>
        dsimp only
        rw [passed]
        exact ih
  rw [given, found]
  rfl

theorem clausesGiven_of_respells (respells : Respells filter other) :
    RespellsFields (clausesGiven filter) (clausesGiven other) := by
  induction respells with
  | nil => exact .nil
  | @cons entry _ rest later first _ ih =>
    cases first with
    | clauses fields => exact fields
    | same =>
      unfold clausesGiven given Entries.find? at ih ⊢
      rw [List.find?_cons, List.find?_cons]
      cases entry.1.isSame (.str "where") with
      | true => exact .refl _
      | false => exact ih

theorem hasKey_of_respells (fields : RespellsFields asked others) (key : Value) :
    asked.hasKey key = others.hasKey key := by
  unfold Entries.hasKey
  induction fields with
  | nil => rfl
  | cons first _ ih => rw [List.any_cons, List.any_cons, first.1, ih]

theorem takeUp_of_respells (fields : RespellsFields asked others) (entry : Value × Value) :
    RespellsFields (takeUp asked entry) (takeUp others entry) := by
  have same := hasKey_of_respells fields entry.1
  cases passed : (entry.1.memberOf reservedKeys || asked.hasKey entry.1) with
  | true =>
    rw [takeUp_of_passed passed, takeUp_of_passed (same ▸ passed)]
    exact fields
  | false =>
    rw [takeUp_of_taken passed, takeUp_of_taken (same ▸ passed)]
    exact List.rel_append fields (RespellsFields.refl _)

theorem whereEntries_of_respells (respells : Respells filter other) :
    RespellsFields (whereEntries filter) (whereEntries other) := by
  have takenUp : ∀ {asked others : Entries Value}, RespellsFields asked others →
      RespellsFields (filter.foldl takeUp asked) (other.foldl takeUp others) := by
    induction respells with
    | nil => exact fun fields => fields
    | @cons entry _ _ _ first _ ih =>
      intro asked others fields
      -- The entry that holds the clauses is passed over, since its key is no field.
      cases first with
      | same => exact ih (takeUp_of_respells fields entry)
      | clauses => exact ih fields
  rw [whereEntries_eq_foldl, whereEntries_eq_foldl]
  exact takenUp (clausesGiven_of_respells respells)

/-- Filters that differ in the names of their operators leave the same records. -/
theorem apply_of_respells (respells : Respells filter other) (records : List Value) :
    apply filter records = apply other records := by
  have kept (record : Value) : Clause.passes record (Clause.ofEntries (whereEntries filter)) =
      Clause.passes record (Clause.ofEntries (whereEntries other)) :=
    Clause.passes_of_agree (Clause.agree_ofEntries (whereEntries_of_respells respells) record)
  unfold apply sortKeys skipCount
  simp (disch := decide) only [kept, given_of_respells respells]

end Filter

namespace Operator

open LikeFlags (IsSuffix MeanSame ofSuffix ofSuffix_eq_iff parse?_eq_some_iff)

/-- **The letters of a name tell its operator.** A text names an operator just when it is the word of
a kind without flags, or the word of a pattern with letters from a fixed set behind it, none of them
twice. Two such names of patterns of one kind make operators that answer alike on all values just
when they hold the same of the letters that mean something. So a filter does the same if the letters
behind its patterns change places, and if letters without a meaning come or go. -/
theorem named_by_letters :
    (∀ name : String, (ofName? name).isSome = true ↔
      (∃ kind : OperatorKind, kind.isPattern = false ∧ name = kind.word) ∨
        ∃ (kind : OperatorKind) (suffix : List Char), kind.isPattern = true ∧ IsSuffix suffix ∧
          name = kind.word ++ String.ofList suffix) ∧
    (∀ (kind : OperatorKind) (s t : List Char), kind.isPattern = true → IsSuffix s → IsSuffix t →
      ∃ flags flags', ofName? (kind.word ++ String.ofList s) = some ⟨kind, flags⟩ ∧
        ofName? (kind.word ++ String.ofList t) = some ⟨kind, flags'⟩ ∧
        ((∀ value wanted, evaluate ⟨kind, flags⟩ value wanted =
          evaluate ⟨kind, flags'⟩ value wanted) ↔ MeanSame s t)) ∧
    ∀ (collection : Collection) (query : Query) (filter other : Entries Value) (context : Value),
      Filter.Respells filter other →
        query.perform collection (.filter (.value (.map filter)) context) =
          query.perform collection (.filter (.value (.map other)) context) := by
  refine ⟨fun name => ?_, fun kind s t flagged spells spells' => ?_,
    fun collection query filter other context respells => ?_⟩
  · rw [Option.isSome_iff_exists]
    constructor
    · rintro ⟨operator, found⟩
      cases ofName?_eq_some_iff.mp found with
      | plain unflagged => exact .inl ⟨_, unflagged, rfl⟩
      | pattern flagged spells => exact .inr ⟨_, _, flagged, spells, rfl⟩
    · rintro (⟨kind, unflagged, rfl⟩ | ⟨kind, suffix, flagged, spells, rfl⟩)
      · exact ⟨_, ofName?_plain unflagged⟩
      · exact ⟨_, ofName?_eq_some_iff.mpr (.pattern flagged spells)⟩
  · exact ⟨ofSuffix s, ofSuffix t, ofName?_eq_some_iff.mpr (.pattern flagged spells),
      ofName?_eq_some_iff.mpr (.pattern flagged spells'),
      (evaluate_eq_iff flagged).trans ofSuffix_eq_iff⟩
  · exact congrArg (fun records => Query.Outcome.mk (.holding records) (.ok .self) [])
      (Filter.apply_of_respells respells (query.current collection))

/-- A pattern whose letters change places while one comes, a barred one that takes one letter without
meaning for another, and a name that is no operator's however its letters stand. -/
theorem named_by_letters_of_several :
    let record := fun (id : Int) (a : String) => Value.map [(.str "id", .int id), (.str "a", .str a)]
    let records := [record 1 "x\ny", record 2 "zz", record 3 "q"]
    let collection : Collection := ⟨.str "id", .blank ["id"], []⟩
    let like := fun letters : List Char => OperatorKind.like.word ++ String.ofList letters
    let notLike := fun letters : List Char => OperatorKind.notLike.word ++ String.ofList letters
    let filter : String → String → String → Entries Value := fun first second third =>
      [(.str "where", .map [(.str "a", .map
        [(.str first, .str "X%"), (.str second, .str "%z"), (.str third, .str "z")])])]
    let before := filter (like ['s', 'i']) ("|" ++ notLike ['g']) (like ['z', 'i'])
    let after := filter (like ['g', 'i', 's']) ("|" ++ notLike ['y']) (like ['i', 'z'])
    let performed := fun filter : Entries Value =>
      (Query.holding records).perform collection (.filter (.value (.map filter)) .null)
    OperatorKind.like.isPattern = true ∧ IsSuffix ['s', 'i'] ∧ IsSuffix ['g', 'i', 's'] ∧
      (∃ flags flags', ofName? (like ['s', 'i']) = some ⟨.like, flags⟩ ∧
        ofName? (like ['g', 'i', 's']) = some ⟨.like, flags'⟩ ∧
        ((∀ value wanted, evaluate ⟨.like, flags⟩ value wanted =
          evaluate ⟨.like, flags'⟩ value wanted) ↔ MeanSame ['s', 'i'] ['g', 'i', 's'])) ∧
      Filter.Respells before after ∧ performed before = performed after ∧
      (performed after).query = .holding [record 1 "x\ny", record 3 "q"] := by
  intro record records collection like notLike filter before after performed
  have spells : IsSuffix ['s', 'i'] := by decide
  have spells' : IsSuffix ['g', 'i', 's'] := by decide
  have first : Renames (like ['s', 'i']) (like ['g', 'i', 's']) :=
    @Renames.suffix .like _ _ rfl (.alike spells spells' (by decide))
  have second : Renames (notLike ['g']) (notLike ['y']) :=
    @Renames.suffix .notLike _ _ rfl (.alike (by decide) (by decide) (by decide))
  have third : Renames (like ['z', 'i']) (like ['i', 'z']) :=
    @Renames.suffix .like _ _ rfl (.permuted (List.Perm.swap ..))
  have respells : Filter.Respells before after :=
    .cons (.clauses (.cons ⟨rfl, .operators (.cons ⟨.plain first, rfl⟩
      (.cons ⟨.barred second, rfl⟩ (.cons ⟨.plain third, rfl⟩ .nil)))⟩ .nil)) .nil
  exact ⟨rfl, spells, spells', named_by_letters.2.1 .like _ _ rfl spells spells', respells,
    named_by_letters.2.2 collection (.holding records) before after .null respells, by cbv⟩

end Operator

end RecordQuery
