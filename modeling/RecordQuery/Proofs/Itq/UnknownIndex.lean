import Mathlib
import RecordQuery.Proofs.Itq.Execution
import RecordQuery.Proofs.Itq.Lexing.Division
import RecordQuery.Proofs.Query.Naming

/-!
# Statements by an index that is not there

A retrieval by an index that the collection lacks is refused, in a query as in a statement, where
the refusal becomes a message. The exception in both is a `get` for a key without components, which
takes all records before it looks at its options (`unknownIndex_refused`).
-/

namespace RecordQuery.Itq

open Grammar

/-! ## Statements that name an index -/

/-- The retrieval asks for a key without components. -/
def Retrieval.IsBlankGet : Retrieval → Prop
  | .get key _ => key.keyItems = []
  | _ => False

/-- The retrieval has at least one key, unless it is over a range. -/
def Retrieval.HasKeys : Retrieval → Prop
  | .getAll keys _ => keys ≠ []
  | _ => True

theorem hasKeys_ofKeys {keys : List Value} (filled : keys ≠ []) (index? : Option String) :
    (Retrieval.ofKeys keys index?).HasKeys := by
  unfold Retrieval.ofKeys
  split
  · trivial
  · exact filled

theorem index?_ofKeys (keys : List Value) (index? : Option String) :
    (Retrieval.ofKeys keys index?).index? = index? := by
  unfold Retrieval.ofKeys
  split <;> rfl

theorem ne_nil_of_isListOf {α : Type} {Item : List Token → α → Prop} {ts : List Token}
    {as : List α} (list : IsListOf Item ts as) : as ≠ [] := by
  cases list with
  | single => exact List.cons_ne_nil _ _
  | more => exact List.append_ne_nil_of_right_ne_nil _ (List.cons_ne_nil _ _)

theorem mem_of_isUsingClause {ts : List Token} {name : String}
    (clause : IsUsingClause ts (some name)) : .identifier name ∈ ts := by
  cases clause with
  | index word name => exact List.mem_cons_of_mem _ List.mem_cons_self

/-- A retrieval that the grammar derives has keys, and the name of its index is among its tokens. -/
theorem of_isRetrieval {ts : List Token} {retrieval : Retrieval}
    (phrase : IsRetrieval ts retrieval) :
    retrieval.HasKeys ∧ ∀ name, retrieval.index? = some name → .identifier name ∈ ts := by
  cases phrase with
  | scan => exact ⟨trivial, fun name told => nomatch told⟩
  | @get ts us keys index? word values index =>
    refine ⟨hasKeys_ofKeys (ne_nil_of_isListOf values) index?, fun name told => ?_⟩
    rw [index?_ofKeys] at told
    subst told
    exact List.mem_cons_of_mem _ (List.mem_append_right _ (mem_of_isUsingClause index))
  | between word conjunction first last index range =>
    refine ⟨trivial, fun name told => ?_⟩
    cases told
    have member := mem_of_isUsingClause index
    simp [member]

theorem exists_isRetrieval {ts : List Token} {s : Statement} (phrase : IsStatement ts s) :
    ∃ rs, rs ⊆ ts ∧ IsRetrieval rs s.retrieval := by
  cases phrase with
  | semicolon query =>
    cases query with
    | clauses retrieved =>
      exact ⟨_, by rw [List.append_assoc]; exact List.subset_append_left _ _, retrieved⟩
  | plain query =>
    cases query with
    | clauses retrieved => exact ⟨_, List.subset_append_left _ _, retrieved⟩

/-- A statement of a text has keys, and it names no index by the empty text. -/
theorem of_ofText [CharacterNames] {text : String} {s : Statement}
    (accepted : Statement.ofText text = .ok s) :
    s.retrieval.HasKeys ∧ ∀ name, s.retrieval.index? = some name → name ≠ "" := by
  obtain ⟨ts, read, phrase, -⟩ := Statement.ofText_eq_ok.mp accepted
  obtain ⟨rs, subset, retrieved⟩ := exists_isRetrieval phrase
  obtain ⟨keyed, named⟩ := of_isRetrieval retrieved
  exact ⟨keyed, fun name told => read.identifier_ne (subset (named name told))⟩

theorem Retrieval.choose_options {retrieval : Retrieval} {name : String} (filled : name ≠ "")
    (told : retrieval.index? = some name) : Options.Choose (.map retrieval.options) [] name := by
  refine ⟨⟨retrieval.options, rfl, ?_⟩, rfl⟩
  have isEmpty : ¬ name.isEmpty = true := by
    rw [String.isEmpty_iff]
    exact filled
  unfold options
  rw [told]
  dsimp only
  rw [if_neg isEmpty]
  cases retrieval.inclusive? <;> rfl

namespace Statement

variable {collection : Collection} {s : Statement} {name : String}

theorem retrieve_of_missing (missing : collection.secondary.hasKey (.str name) = false)
    (filled : name ≠ "") (named : s.retrieval.index? = some name) (keyed : s.retrieval.HasKeys)
    (nonblank : ¬ s.retrieval.IsBlankGet) :
    s.retrieve collection = .error (.unknownIndex name) := by
  have chosen := Retrieval.choose_options filled named
  unfold retrieve
  dsimp only
  generalize s.retrieval = retrieval at chosen keyed nonblank named ⊢
  cases retrieval with
  | scan => cases named
  | get key index? => exact Query.get_of_missing missing filled chosen rfl nonblank
  | getAll keys index? =>
    exact Query.getAll_of_missing missing filled chosen rfl (Query.splitOptions_concat keys _) keyed
  | between left right index? inclusive? =>
    exact Query.between_of_missing missing filled chosen left right rfl

theorem execute_of_missing (missing : collection.secondary.hasKey (.str name) = false)
    (filled : name ≠ "") (named : s.retrieval.index? = some name) (keyed : s.retrieval.HasKeys)
    (nonblank : ¬ s.retrieval.IsBlankGet) :
    s.execute collection = .ok ⟨[], [], some ("Unknown index: " ++ name)⟩ := by
  unfold execute
  rw [retrieve_of_missing missing filled named keyed nonblank]
  rfl

/-- A statement with a key without components is executed like the one without retrieval. -/
theorem execute_of_isBlankGet (collection : Collection) (blank : s.retrieval.IsBlankGet) :
    s.execute collection = { s with retrieval := .scan }.execute collection := by
  obtain ⟨retrieval, conditions, sortBy, offset, limit⟩ := s
  cases retrieval with
  | get key index? =>
    unfold execute retrieve
    dsimp only
    rw [Query.get_of_blank rfl blank]
    rfl
  | _ => exact blank.elim

end Statement

/-- **A retrieval by an index that is not there is refused.** An empty query whose options name such
an index stays as it was, with the index told in the error, whatever the keys or the boundaries; and
a statement that names it gives an empty result with the message. Only a `get` for a key without
components takes all records of the collection, whatever index its options name. -/
theorem unknownIndex_refused [CharacterNames] {collection : Collection} {name : String}
    (missing : collection.secondary.hasKey (.str name) = false) :
    (∀ (query : Query) (step : Query.Step) (options : Value) (named : Entries Value),
      query.state = .empty → name ≠ "" → step.Retrieves options named →
      Options.Choose options named name → ¬ step.IsBlankGet →
      query.perform collection step = ⟨query, .error (.unknownIndex name), []⟩ ∧
        query.records? = none) ∧
    (∀ (query : Query) (step : Query.Step), query.state = .empty → step.IsBlankGet →
      query.perform collection step = ⟨.holding collection.primary.toList, .ok .self, []⟩) ∧
    ∀ (text : String) (s : Statement), Statement.ofText text = .ok s →
      s.retrieval.index? = some name →
      (¬ s.retrieval.IsBlankGet →
        s.execute collection = .ok ⟨[], [], some ("Unknown index: " ++ name)⟩) ∧
      (s.retrieval.IsBlankGet →
        s.execute collection = { s with retrieval := .scan }.execute collection ∧
        ∃ result, s.execute collection = .ok result ∧ result.message = none) := by
  refine ⟨fun query step options named blank filled retrieves chosen keyed => ⟨?_, ?_⟩,
    fun query step blank keyless => Query.perform_of_isBlankGet collection blank keyless,
    fun text s accepted told => ⟨fun nonblank => ?_, fun blank => ?_⟩⟩
  · exact Query.perform_of_missing missing filled chosen blank retrieves keyed
  · exact Query.records?_eq_none.mpr blank
  · obtain ⟨keyed, named⟩ := of_ofText accepted
    exact Statement.execute_of_missing missing (named name told) told keyed nonblank
  · have scanned := Statement.execute_of_isBlankGet collection blank
    exact ⟨scanned, _, scanned, rfl⟩

open scoped CharacterNames

/-- Two missing keys by a named value, the empty tuple by the mapping, and a statement for two keys:
none of the keys has components, and only the one that stands alone is not refused. -/
theorem unknownIndex_refused_of_blanks :
    let one := Value.map [(.str "id", .int 1)]
    let byId : Index := .blank ["id"]
    let collection : Collection := ⟨.str "id", byId.insertAll [one], []⟩
    let mapping := Value.map [(.str "index", .str "nope")]
    let all := Query.Step.getAll [.null, .null, .map [(.str "limit", .int 3)]]
      [(.str "index", .str "nope")]
    let statement : Statement := ⟨.getAll [.null, .list []] (some "nope"), [], [], 0, none⟩
    collection.secondary.hasKey (.str "nope") = false ∧
      Query.empty.perform collection all = ⟨.empty, .error (.unknownIndex "nope"), []⟩ ∧
      Query.empty.perform collection (.get (.tuple []) mapping []) =
        ⟨.holding [one], .ok .self, []⟩ ∧
      Statement.ofText "get null, [] using nope" = .ok statement ∧
      statement.execute collection = .ok ⟨[], [], some "Unknown index: nope"⟩ := by
  intro one byId collection mapping all statement
  have missing : collection.secondary.hasKey (.str "nope") = false := rfl
  have retrieves : all.Retrieves (.map [(.str "limit", .int 3)]) [(.str "index", .str "nope")] :=
    .getAll rfl (List.cons_ne_nil Value.null [.null])
  have chosen : Options.Choose (.map [(.str "limit", .int 3)])
      [(.str "index", .str "nope")] "nope" := ⟨⟨_, rfl, rfl⟩, rfl⟩
  have accepted : Statement.ofText "get null, [] using nope" = .ok statement := by cbv
  obtain ⟨refused, taken, executed⟩ := unknownIndex_refused missing
  have listed : (byId.insertAll [one]).toList = [one] := by cbv
  have blank := taken .empty (.get (.tuple []) mapping []) rfl rfl
  rw [listed] at blank
  exact ⟨missing, (refused _ _ _ _ rfl (by decide) retrieves chosen id).1, blank, accepted,
    (executed _ _ accepted rfl).1 id⟩

/-- Naming an index that is not there is no use where the options are not read: for the missing key,
in a query as in a statement, with a named value of a reserved name and with options that are no
mapping. -/
theorem unknownIndex_unnoticed :
    let one := Value.map [(.str "id", .int 1)]
    let byId : Index := .blank ["id"]
    let collection : Collection := ⟨.str "id", byId.insertAll [one], []⟩
    let index := (Value.str "index", Value.str "nope")
    let statement : Statement := ⟨.get .null (some "nope"), [], [], 0, none⟩
    collection.secondary.hasKey (.str "nope") = false ∧
      Query.empty.perform collection (.get .null .null [index]) =
        ⟨.holding [one], .ok .self, []⟩ ∧
      Query.empty.perform collection (.get (.int 1) .null [index, (.str "cls", .int 1)]) =
        ⟨.empty, .error (.reservedOption "cls"), []⟩ ∧
      Query.empty.perform collection (.get (.int 1) (.int 7) [index]) =
        ⟨.empty, .error (.optionsNotMapping "int"), []⟩ ∧
      Statement.ofText "get null using nope" = .ok statement ∧
      statement.execute collection =
        .ok ⟨[.str "id"], [[(.str "id", .int 1)]], none⟩ := by
  intro one byId collection index statement
  refine ⟨rfl, ?_, rfl, rfl, ?_, ?_⟩
  · cbv
  · cbv
  · cbv

end RecordQuery.Itq
